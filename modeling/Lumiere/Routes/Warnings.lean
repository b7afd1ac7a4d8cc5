/-
The warnings of a server and its audit log (`lumiere-server/src/routes/moderation.rs`). `create_warning` and
`delete_warning` write to `warnings` and then, with a statement of its own, to `audit_log`.

- `warnings_accounted`: whatever else goes on, the log has an entry for each warning that was stored and one for each that
  was deleted, but for the entries whose statements failed or are still to come.
- `warnings_accounted_repeated`: a moderator who repeats a request that failed has warned twice.
-/
import Lumiere.Core.Ledger
import Lumiere.Core.Paired
import Lumiere.Routes.MessageWrites

namespace Lumiere.Routes.Warnings

open Lumiere.Core Lumiere.Core.Prog Lumiere.Models Lumiere.Db

/-! ## The tables -/

structure Warning where
  id : ℤ
  serverId : ℤ
  userId : ℤ
  moderatorId : Option ℤ
  reason : String
  createdAt : DateTime
deriving DecidableEq, Repr

/-- a row of `audit_log` -/
structure AuditRow where
  id : ℤ
  serverId : ℤ
  userId : Option ℤ
  targetId : Option ℤ
  actionType : ℤ
  changes : Option Json
  reason : Option String
  createdAt : DateTime
deriving DecidableEq, Repr

structure ModerationDb where
  pg : Postgres
  warnings : Table Warning.id
  auditLog : Table AuditRow.id

inductive Write where
  | sql (w : Sql)
  | insertWarning (row : Warning)
  /-- `WHERE id = $1 AND server_id = $2` -/
  | deleteWarning (id serverId : ℤ)
  | insertAudit (row : AuditRow)
deriving DecidableEq, Repr

/-- `REFERENCES servers(id) ON DELETE CASCADE`; no statement deletes a user -/
def cascade (w : Sql) (s : ModerationDb) : ModerationDb :=
  match w with
  | .deleteServer serverId => { s with
      warnings := s.warnings.deleteWhere fun row => row.serverId = serverId
      auditLog := s.auditLog.deleteWhere fun row => row.serverId = serverId }
  | _ => s

def insertWarning (row : Warning) (s : ModerationDb) : Except DbError (ℕ × ModerationDb) := do
  let row := { row with reason := ← varchar 512 row.reason }
  let warnings ← unique "warnings_pkey" s.warnings row
  requires (.foreignKey "warnings" "warnings_server_id_fkey") (s.pg.hasServer row.serverId)
  requires (.foreignKey "warnings" "warnings_user_id_fkey") (s.pg.hasUser row.userId)
  requires (.foreignKey "warnings" "warnings_moderator_id_fkey") (row.moderatorId.all s.pg.hasUser)
  return (1, { s with warnings })

def insertAudit (row : AuditRow) (s : ModerationDb) : Except DbError (ℕ × ModerationDb) := do
  let row := { row with reason := ← varchar? 512 row.reason }
  let auditLog ← unique "audit_log_pkey" s.auditLog row
  requires (.foreignKey "audit_log" "audit_log_server_id_fkey") (s.pg.hasServer row.serverId)
  requires (.foreignKey "audit_log" "audit_log_user_id_fkey") (row.userId.all s.pg.hasUser)
  return (1, { s with auditLog })

def Write.exec : Write → ModerationDb → Except AppError (ℕ × ModerationDb)
  | .sql w, s => (statement w s.pg).map fun r => (r.1, cascade w { s with pg := r.2 })
  | .insertWarning row, s => (Warnings.insertWarning row s).mapError dbErr
  | .deleteWarning id serverId, s =>
    .ok (s.warnings.count fun row => row.id = id && row.serverId = serverId, { s with
      warnings := s.warnings.deleteWhere fun row => row.id = id && row.serverId = serverId })
  | .insertAudit row, s => (Warnings.insertAudit row s).mapError dbErr

abbrev ModerationHandler := Prog ModerationDb Write AppError

/-- a check that the handlers share -/
def onPostgres {α : Type} (h : Handler α) : ModerationHandler α := h.lift ModerationDb.pg Write.sql

/-! ## The handlers -/

structure CreateWarningRequest where
  reason : String
deriving DecidableEq, Repr

def CreateWarningRequest.validate (body : CreateWarningRequest) : List FieldError :=
  lengthErrors "reason" 1 512 body.reason

structure WarningResponse where
  id : ℤ
  serverId : ℤ
  userId : ℤ
  moderatorId : Option ℤ
  reason : String
  createdAt : DateTime
deriving DecidableEq, Repr

/-- what a request draws on its way: ids, the times at which its rows are stored, and that of the response -/
structure Draws where
  warningId : ℤ
  auditId : ℤ
  storedAt : DateTime
  loggedAt : DateTime
  answeredAt : DateTime
deriving DecidableEq, Repr

def newWarning (auth serverId userId : ℤ) (body : CreateWarningRequest) (draws : Draws) : Warning :=
  { id := draws.warningId, serverId, userId, moderatorId := some auth, reason := body.reason,
    createdAt := draws.storedAt }

def newAudit (auth serverId targetId actionType : ℤ) (reason : String) (draws : Draws) : AuditRow :=
  { id := draws.auditId, serverId, userId := some auth, targetId := some targetId, actionType, changes := none,
    reason := some reason, createdAt := draws.loggedAt }

def createWarning (auth serverId userId : ℤ) (body : CreateWarningRequest) (draws : Draws) :
    ModerationHandler WarningResponse := do
  onPostgres (requirePermissions serverId auth .moderateMembers)
  failIf (body.validate ≠ []) (.validation body.validate)
  failIf (auth = userId) (.badRequest "Cannot warn yourself")
  let isMember ← select fun s => s.pg.hasMember serverId userId
  failIf (!isMember) (.notFound "Member not found in this server")
  execute (.insertWarning (newWarning auth serverId userId body draws))
  execute (.insertAudit (newAudit auth serverId userId 50 body.reason draws))
  pure ⟨draws.warningId, serverId, userId, some auth, body.reason, draws.answeredAt⟩

def deleteWarning (auth serverId warningId : ℤ) (draws : Draws) : ModerationHandler Unit := do
  onPostgres (requirePermissions serverId auth .moderateMembers)
  let n ← affected (.deleteWarning warningId serverId)
  failIf (n = 0) (.notFound "Warning not found")
  execute (.insertAudit (newAudit auth serverId warningId 51 "Warning deleted" draws))

/-! ## Requests side by side -/

inductive Request where
  | createWarning (auth serverId userId : ℤ) (body : CreateWarningRequest) (draws : Draws)
  | deleteWarning (auth serverId warningId : ℤ) (draws : Draws)
  /-- a statement of some other request -/
  | other (w : Sql)
deriving DecidableEq, Repr

def start : Request → ModerationHandler Unit
  | .createWarning auth serverId userId body draws => do
    let _ ← Warnings.createWarning auth serverId userId body draws
    pure ()
  | .deleteWarning auth serverId warningId draws => Warnings.deleteWarning auth serverId warningId draws
  | .other w => execute (.sql w)

def disconnected : AppError := .internal "the request was cut off"

abbrev Requests := Calls Request ModerationDb Write AppError

def init (pg : Postgres) : Requests := ⟨[], ⟨pg, .empty, .empty⟩⟩

abbrev step : Requests → Move Request → Requests := Calls.step start Write.exec disconnected

/-! ## What an entry says -/

/-- what an entry of the log is about; a deletion names the warning, not the user -/
inductive Entry where
  | warned (serverId : ℤ) (moderatorId userId : Option ℤ) (reason : Option String)
  | unwarned (serverId : ℤ) (warningId : Option ℤ)
deriving DecidableEq, Repr

def AuditRow.entry (row : AuditRow) : Option Entry :=
  if row.actionType = 50 then some (.warned row.serverId row.userId row.targetId row.reason)
  else if row.actionType = 51 then some (.unwarned row.serverId row.targetId)
  else none

/-- what is to be logged next -/
def opens : Write → ℕ → Option Entry
  | .insertWarning row, _ => some (.warned row.serverId row.moderatorId (some row.userId) (some row.reason))
  | .deleteWarning id serverId, n => if n = 0 then none else some (.unwarned serverId (some id))
  | _, _ => none

def closes : Write → Option Entry
  | .insertAudit row => row.entry
  | _ => none

/-- the entries of the log about `x` -/
def logged (x : Entry) (s : ModerationDb) : ℕ := s.auditLog.count fun row => row.entry = some x

/-- the warning that a statement stores -/
def storedBy : Write → Option Warning
  | .insertWarning row => some row
  | _ => none

/-- the warnings stored in a run, in their order -/
def stored (pg : Postgres) (moves : List (Move Request)) : List Warning :=
  (Calls.effects start Write.exec disconnected (init pg) moves).filterMap fun r => storedBy r.1

/-- the entries about `x` that a run lost: their statements failed, or their requests were cut off before them -/
def lost (x : Entry) (pg : Postgres) (moves : List (Move Request)) : ℕ :=
  ((Calls.failures start Write.exec disconnected (init pg) moves).filterMap closes).count x

/-- the entries about `x` that come next -/
def owed (x : Entry) (s : Requests) : ℕ := (s.owed closes).count x

/-! ## The statements -/

variable {serverId : ℤ} {s t : ModerationDb} {n : ℕ}

/-- the server stays, and what is logged fits its column -/
def Allowed (serverId : ℤ) : Write → Prop
  | .sql w => w ≠ .deleteServer serverId
  | .insertAudit row => ∀ reason ∈ row.reason, reason.length ≤ 512
  | _ => True

theorem varchar_of_le {reason reason' : String} (h : reason.length ≤ 512) (hok : varchar 512 reason = .ok reason') :
    reason' = reason := by
  rw [varchar_eq_ok hok, fitted_eq_iff]
  exact h

theorem exec_insertWarning {row : Warning} (h : (Write.insertWarning row).exec s = .ok (n, t)) :
    ∃ reason, t.warnings.rows = s.warnings.rows ++ [{ row with reason }] ∧ t.auditLog = s.auditLog := by
  obtain ⟨reason, -, h⟩ := bind_eq_ok.mp (mapError_eq_ok.mp h)
  obtain ⟨warnings, hinsert, h⟩ := bind_eq_ok.mp h
  obtain ⟨-, -, h⟩ := bind_eq_ok.mp h
  obtain ⟨-, -, h⟩ := bind_eq_ok.mp h
  obtain ⟨-, -, h⟩ := bind_eq_ok.mp h
  obtain ⟨-, rfl⟩ := Prod.mk.inj (pure_eq_ok.mp h)
  exact ⟨reason, Table.rows_insert? (unique_eq_ok.mp hinsert), rfl⟩

theorem exec_insertAudit {row : AuditRow} (hfits : ∀ reason ∈ row.reason, reason.length ≤ 512)
    (h : (Write.insertAudit row).exec s = .ok (n, t)) :
    t.auditLog.rows = s.auditLog.rows ++ [row] ∧ t.warnings = s.warnings := by
  obtain ⟨reason, hreason, h⟩ := bind_eq_ok.mp (mapError_eq_ok.mp h)
  obtain ⟨auditLog, hinsert, h⟩ := bind_eq_ok.mp h
  obtain ⟨-, -, h⟩ := bind_eq_ok.mp h
  obtain ⟨-, -, h⟩ := bind_eq_ok.mp h
  obtain ⟨-, rfl⟩ := Prod.mk.inj (pure_eq_ok.mp h)
  obtain rfl : reason = row.reason := by
    cases hrow : row.reason with
    | none =>
      rw [hrow] at hreason
      exact (Except.ok.inj hreason).symm
    | some text =>
      rw [hrow] at hreason
      obtain ⟨text', htext, rfl⟩ := map_eq_ok.mp hreason
      rw [varchar_of_le (hfits text hrow) htext]
  exact ⟨Table.rows_insert? (unique_eq_ok.mp hinsert), rfl⟩

theorem count_deleteWhere {α κ : Type} {key : α → κ} (table : Table key) {p q : α → Bool}
    (h : ∀ a, p a = true → q a = false) : (table.deleteWhere q).count p = table.count p := by
  unfold Table.count Table.deleteWhere
  rw [List.countP_filter]
  apply List.countP_congr
  intro a _
  cases hp : p a
  · simp
  · simp [h a hp]

theorem cascade_count {w : Sql} (hw : w ≠ .deleteServer serverId) {p : AuditRow → Bool} {q : Warning → Bool}
    (hp : ∀ row, p row = true → row.serverId = serverId) (hq : ∀ row, q row = true → row.serverId = serverId) :
    (cascade w s).auditLog.count p = s.auditLog.count p ∧ (cascade w s).warnings.count q = s.warnings.count q := by
  cases w with
  | deleteServer id =>
    have hne : serverId ≠ id := by
      intro heq
      exact hw (by rw [heq])
    constructor
    · apply count_deleteWhere
      intro row hrow
      simp [hp row hrow, hne]
    · apply count_deleteWhere
      intro row hrow
      simp [hq row hrow, hne]
  | _ => exact ⟨rfl, rfl⟩

theorem exec_sql {w : Sql} (hw : w ≠ .deleteServer serverId) (h : (Write.sql w).exec s = .ok (n, t))
    {p : AuditRow → Bool} {q : Warning → Bool} (hp : ∀ row, p row = true → row.serverId = serverId)
    (hq : ∀ row, q row = true → row.serverId = serverId) :
    t.auditLog.count p = s.auditLog.count p ∧ t.warnings.count q = s.warnings.count q := by
  obtain ⟨⟨n', pg⟩, -, h⟩ := map_eq_ok.mp h
  obtain ⟨-, rfl⟩ := Prod.mk.inj h
  exact cascade_count (s := { s with pg }) hw hp hq

/-- a deletion takes the warning with its id, if there is one -/
theorem count_deleteWarning (serverId wid server id : ℤ) (warnings : Table Warning.id) :
    warnings.count (fun row => row.serverId = serverId ∧ row.id = id) =
      (warnings.deleteWhere fun row => row.id = wid && row.serverId = server).count
          (fun row => row.serverId = serverId ∧ row.id = id) +
        (opens (.deleteWarning wid server) (warnings.count fun row => row.id = wid && row.serverId = server)).toList.count
          (.unwarned serverId (some id)) := by
  by_cases hsame : wid = id ∧ server = serverId
  · obtain ⟨rfl, rfl⟩ := hsame
    have hfilter : (fun row : Warning => decide (row.serverId = server ∧ row.id = wid)) =
        fun row => row.id = wid && row.serverId = server := by
      funext row
      simp [and_comm]
    have hgone : (warnings.deleteWhere fun row => row.id = wid && row.serverId = server).count
        (fun row => row.id = wid && row.serverId = server) = 0 := by
      unfold Table.count Table.deleteWhere
      rw [List.countP_filter, List.countP_eq_zero]
      simp
    have hone : (warnings.count fun row => row.id = wid && row.serverId = server) ≤ 1 := by
      apply Table.count_le_one (k := wid)
      intro row _ hrow
      simp only [Bool.and_eq_true, decide_eq_true_eq] at hrow
      exact hrow.1
    rw [hfilter, hgone, opens]
    split_ifs with hzero
    · simp [hzero]
    · simp
      omega
  · have hkept : (warnings.deleteWhere fun row => row.id = wid && row.serverId = server).count
        (fun row => row.serverId = serverId ∧ row.id = id) =
          warnings.count fun row => row.serverId = serverId ∧ row.id = id := by
      apply count_deleteWhere
      intro row hrow
      obtain ⟨rfl, rfl⟩ := of_decide_eq_true hrow
      simp only [Bool.and_eq_false_iff, decide_eq_false_iff_not]
      by_contra hboth
      push Not at hboth
      exact hsame ⟨hboth.1.symm, hboth.2.symm⟩
    rw [hkept, opens]
    split_ifs
    · simp
    · have hne : Entry.unwarned server (some wid) ≠ .unwarned serverId (some id) := by
        intro heq
        simp only [Entry.unwarned.injEq, Option.some.injEq] at heq
        exact hsame ⟨heq.2, heq.1⟩
      simp [hne]

/-! ## What the statements of a run amount to -/

/-- the entry is about the server -/
def Entry.isAbout (serverId : ℤ) : Entry → Bool
  | .warned id _ _ _ => id = serverId
  | .unwarned id _ => id = serverId

theorem serverId_of_entry {row : AuditRow} {x : Entry} (hx : x.isAbout serverId = true) (h : row.entry = some x) :
    row.serverId = serverId := by
  unfold AuditRow.entry at h
  split_ifs at h
  · obtain rfl := Option.some.inj h
    simpa [Entry.isAbout] using hx
  · obtain rfl := Option.some.inj h
    simpa [Entry.isAbout] using hx

theorem filterMap_singleton {α β : Type} (f : α → Option β) (a : α) : [a].filterMap f = (f a).toList := by
  cases h : f a <;> simp [h]

/-- the log, and the warnings with an id, after the statements -/
structure Books (serverId : ℤ) (done : List (Write × ℕ)) (s : ModerationDb) : Prop where
  log : ∀ x : Entry, x.isAbout serverId = true → logged x s = (done.filterMap fun r => closes r.1).count x
  warnings : ∀ id, (done.filterMap fun r => storedBy r.1).countP (fun row => row.serverId = serverId ∧ row.id = id) =
    s.warnings.count (fun row => row.serverId = serverId ∧ row.id = id) +
      (done.filterMap fun r => opens r.1 r.2).count (.unwarned serverId (some id))

theorem books_init (serverId : ℤ) (pg : Postgres) : Books serverId [] ⟨pg, .empty, .empty⟩ := by
  constructor
  · intro x _
    rfl
  · intro id
    rfl

theorem Books.snoc {done : List (Write × ℕ)} {w : Write} (hw : Allowed serverId w) (h : Books serverId done s)
    (hexec : w.exec s = .ok (n, t)) : Books serverId (done ++ [(w, n)]) t := by
  constructor
  · intro x hx
    have hlog := h.log x hx
    rw [List.filterMap_append, List.count_append, ← hlog]
    unfold logged
    cases w with
    | sql w =>
      have hserver : ∀ row : AuditRow, decide (row.entry = some x) = true → row.serverId = serverId :=
        fun row hrow => serverId_of_entry hx (of_decide_eq_true hrow)
      have hcount := (exec_sql hw hexec hserver (q := fun _ => false) (by simp)).1
      rw [hcount]
      rfl
    | insertWarning row =>
      obtain ⟨reason, -, hlog⟩ := exec_insertWarning hexec
      rw [hlog]
      rfl
    | deleteWarning id server =>
      obtain ⟨-, rfl⟩ := Prod.mk.inj (Except.ok.inj hexec)
      rfl
    | insertAudit row =>
      rw [Table.count, (exec_insertAudit hw hexec).1, List.countP_append]
      cases hentry : row.entry with
      | none => simp [closes, hentry, Table.count]
      | some y => simp [closes, hentry, Table.count, List.count_singleton, List.countP_cons]
  · intro id
    have hwarnings := h.warnings id
    rw [List.filterMap_append, List.filterMap_append, List.countP_append, List.count_append, hwarnings]
    cases w with
    | sql w =>
      have hcount := (exec_sql hw hexec (p := fun _ => false) (by simp)
        (q := fun row => decide (row.serverId = serverId ∧ row.id = id)) (by simp; tauto)).2
      rw [hcount]
      rfl
    | insertWarning row =>
      obtain ⟨reason, hrows, -⟩ := exec_insertWarning hexec
      rw [Table.count, Table.count, hrows, List.countP_append]
      simp [storedBy, opens, List.countP_cons]
      omega
    | deleteWarning wid server =>
      obtain ⟨rfl, rfl⟩ := Prod.mk.inj (Except.ok.inj hexec)
      have hcount := count_deleteWarning serverId wid server id s.warnings
      rw [filterMap_singleton, filterMap_singleton]
      dsimp only [storedBy]
      simp only [Option.toList_none, List.countP_nil]
      omega
    | insertAudit row =>
      rw [(exec_insertAudit hw hexec).2]
      rfl

/-! ## The requests -/

theorem linked_onPostgres {α : Type} {h : Handler α} (hr : h.ReadOnly) :
    (onPostgres h).Linked (Allowed serverId) opens closes none :=
  ReadOnly.linked (issues_lift hr)

theorem linked_createWarning (auth server userId : ℤ) (body : CreateWarningRequest) (draws : Draws) :
    (createWarning auth server userId body draws).Linked (Allowed serverId) opens closes none := by
  apply linked_bind (linked_onPostgres readOnly_requirePermissions)
  intro _
  apply linked_failIf_bind
  intro hvalid
  apply linked_failIf_bind
  intro _
  apply linked_bind (ReadOnly.linked (issues_select _))
  intro isMember
  apply linked_failIf_bind
  intro _
  have hfits : body.reason.length ≤ 512 := by
    by_contra hlong
    simp [CreateWarningRequest.validate, lengthErrors, hlong] at hvalid
  apply linked_execute_bind trivial
  intro _
  refine linked_execute_bind ?_ ?_
  · intro reason hreason
    obtain rfl := Option.some.inj hreason
    exact hfits
  · intro _
    exact linked_pure _

theorem linked_deleteWarning (auth server warningId : ℤ) (draws : Draws) :
    (deleteWarning auth server warningId draws).Linked (Allowed serverId) opens closes none := by
  apply linked_bind (linked_onPostgres readOnly_requirePermissions)
  intro _
  apply linked_affected_bind trivial rfl
  intro n
  rw [opens]
  split_ifs with hn
  · subst hn
    rfl
  · unfold failIf
    rw [if_neg hn]
    refine linked_execute ?_ ?_
    · intro reason hreason
      obtain rfl := Option.some.inj hreason
      decide
    · intro _
      rfl

theorem linked_start {r : Request} (h : r ≠ .other (.deleteServer serverId)) :
    (start r).Linked (Allowed serverId) opens closes none := by
  cases r with
  | createWarning auth server userId body draws =>
    apply linked_bind (linked_createWarning auth server userId body draws)
    intro _
    exact linked_pure ()
  | deleteWarning auth server warningId draws => exact linked_deleteWarning auth server warningId draws
  | other w =>
    refine linked_execute ?_ ?_
    · intro hw
      exact h (by rw [hw])
    · intro _
      rfl

/-! ## Runs -/

theorem books_run (pg : Postgres) {moves : List (Move Request)}
    (h : .issue (.other (.deleteServer serverId)) ∉ moves) :
    Books serverId (Calls.effects start Write.exec disconnected (init pg) moves)
      (run step (init pg) moves).shared := by
  have hstart : ∀ r, .issue r ∈ moves → (start r).Linked (Allowed serverId) opens closes none := by
    intro r hr
    apply linked_start
    rintro rfl
    exact h hr
  have hlinked : (init pg).AllLinked (Allowed serverId) opens closes := by simp [Calls.AllLinked, init]
  exact Calls.effects_run [] hstart (fun hw hbooks hexec => hbooks.snoc hw hexec) hlinked
    (books_init serverId pg)

/-- what is to be logged is logged, lost or owed -/
theorem opened_eq (pg : Postgres) {moves : List (Move Request)} (h : .issue (.other (.deleteServer serverId)) ∉ moves)
    {x : Entry} (hx : x.isAbout serverId = true) :
    ((Calls.effects start Write.exec disconnected (init pg) moves).filterMap fun r => opens r.1 r.2).count x =
      logged x (run step (init pg) moves).shared + lost x pg moves + owed x (run step (init pg) moves) := by
  have hstart : ∀ r, .issue r ∈ moves → (start r).Linked (Allowed serverId) opens closes none := by
    intro r hr
    apply linked_start
    rintro rfl
    exact h hr
  have hlinked : (init pg).AllLinked (Allowed serverId) opens closes := by simp [Calls.AllLinked, init]
  have hconserved := Calls.conserved Write.exec disconnected hstart hlinked fun y => y == x
  rw [(books_run pg h).log x hx]
  exact hconserved

/-- a warning that was stored is still there or was deleted, and the log says so of each, but for entries lost or owed -/
structure Accounted (serverId : ℤ) (pg : Postgres) (moves : List (Move Request)) : Prop where
  warned : ∀ moderatorId userId reason,
    (stored pg moves).countP (fun row => row.serverId = serverId ∧ row.moderatorId = moderatorId ∧ row.userId = userId ∧
        row.reason = reason) =
      let x := Entry.warned serverId moderatorId (some userId) (some reason)
      logged x (run step (init pg) moves).shared + lost x pg moves + owed x (run step (init pg) moves)
  unwarned : ∀ warningId,
    (stored pg moves).countP (fun row => row.serverId = serverId ∧ row.id = warningId) =
      let x := Entry.unwarned serverId (some warningId)
      (run step (init pg) moves).shared.warnings.count (fun row => row.serverId = serverId ∧ row.id = warningId) +
        (logged x (run step (init pg) moves).shared + lost x pg moves + owed x (run step (init pg) moves))

/-- **The log and the warnings.** -/
theorem warnings_accounted (pg : Postgres) (serverId : ℤ) (moves : List (Move Request))
    (h : .issue (.other (.deleteServer serverId)) ∉ moves) : Accounted serverId pg moves := by
  constructor
  · intro moderatorId userId reason
    dsimp only
    rw [← opened_eq pg h (by simp [Entry.isAbout]), stored, List.countP_filterMap, List.count, List.countP_filterMap]
    apply List.countP_congr
    intro r _
    obtain ⟨w, n⟩ := r
    cases w with
    | deleteWarning id server =>
      by_cases hn : n = 0 <;> simp [storedBy, opens, hn]
    | _ => simp [storedBy, opens]
  · intro warningId
    dsimp only
    rw [← opened_eq pg h (by simp [Entry.isAbout])]
    exact (books_run pg h).warnings warningId

/-- the owner warns user 2 -/
def warnTwo (id : ℤ) : Move Request := .issue (.createWarning 1 100 2 ⟨"spam"⟩ ⟨id, id + 1, ⟨0⟩, ⟨0⟩, ⟨0⟩⟩)

/-- the first request is cut off between its statements and repeated, and the second warning deleted -/
def repeated : List (Move Request) :=
  [warnTwo 10, .advance 0, .advance 0, .advance 0, .advance 0, .interrupt 0, warnTwo 20, .advance 1, .advance 1,
    .advance 1, .advance 1, .advance 1, .issue (.deleteWarning 1 100 20 ⟨0, 30, ⟨0⟩, ⟨0⟩, ⟨0⟩⟩), .advance 2, .advance 2,
    .advance 2, .advance 2]

/-- user 2 has been warned twice, and the log has one entry of it -/
theorem warnings_accounted_repeated :
    Accounted 100 joined.pg repeated ∧ (run step (init joined.pg) repeated).Quiet ∧
      (stored joined.pg repeated).map Warning.id = [10, 20] ∧
      (run step (init joined.pg) repeated).shared.warnings.rows.map Warning.id = [10] ∧
      (run step (init joined.pg) repeated).shared.auditLog.rows.map AuditRow.actionType = [50, 51] :=
  ⟨warnings_accounted joined.pg 100 repeated (by decide), by decide, by decide, by decide, by decide⟩

end Lumiere.Routes.Warnings
