/-
Reading the audit log of a server page by page (`get_audit_log` in `lumiere-server/src/routes/moderation.rs`), each page
before the last entry of the one before, while other requests go on and write to the log.

- `auditWalk_complete`: the walk ends, and lists every entry that the query asks for and that was there at its first
  request, newest id first and none twice.
-/
import Lumiere.Core.LiveWalk
import Lumiere.Core.Ordered
import Lumiere.Routes.Warnings

namespace Lumiere.Routes.Warnings

open Lumiere.Core Lumiere.Core.Prog Lumiere.Models Lumiere.Db

structure AuditLogQuery where
  userId : Option ℤ
  actionType : Option ℤ
  before : Option ℤ
  limit : Option ℤ
deriving DecidableEq, Repr

structure AuditLogEntry where
  id : ℤ
  userId : Option ℤ
  targetId : Option ℤ
  actionType : ℤ
  changes : Option Json
  reason : Option String
  createdAt : DateTime
deriving DecidableEq, Repr

def logEntry (row : AuditRow) : AuditLogEntry :=
  ⟨row.id, row.userId, row.targetId, row.actionType, row.changes, row.reason, row.createdAt⟩

/-- the conditions of the query but `id < $n`; a NULL is equal to nothing -/
def AuditLogQuery.asksFor (query : AuditLogQuery) (serverId : ℤ) (row : AuditRow) : Bool :=
  row.serverId = serverId && query.userId.all (fun id => row.userId = some id) &&
    query.actionType.all fun actionType => row.actionType = actionType

/-- `clamp(1, 100)` -/
def AuditLogQuery.pageSize (query : AuditLogQuery) : ℕ := (max 1 (min (query.limit.getD 50) 100)).toNat

/-- `ORDER BY id DESC` -/
def selectAuditLog (s : ModerationDb) (serverId : ℤ) (query : AuditLogQuery) : List AuditRow :=
  (ordered AuditRow.id (s.auditLog.select fun row =>
    query.asksFor serverId row && query.before.all fun before => row.id < before)).reverse.take query.pageSize

def getAuditLog (auth serverId : ℤ) (query : AuditLogQuery) : ModerationHandler (List AuditLogEntry) := do
  onPostgres (requirePermissions serverId auth .viewAuditLog)
  let rows ← select fun s => selectAuditLog s serverId query
  pure (rows.map logEntry)

/-! ## The walk -/

/-- the states after each part of a run -/
def visits : Requests → List (List (Move Request)) → List Requests
  | _, [] => []
  | s, moves :: later => run step s moves :: visits (run step s moves) later

def auditPage (auth serverId : ℤ) (query : AuditLogQuery) (s : Requests) (before : Option ℤ) :
    Except AppError (List AuditLogEntry) :=
  ((getAuditLog auth serverId { query with before }).run Write.exec s.shared).1

/-- one request in each of the states, until a page is empty -/
def auditWalk (auth serverId : ℤ) (query : AuditLogQuery) (states : List Requests) :
    Except AppError (Option (List (List AuditLogEntry))) :=
  liveWalk (auditPage auth serverId query) AuditLogEntry.id states none

/-- what the query asks for, without its cursor and its limit -/
def entries (query : AuditLogQuery) (serverId : ℤ) (s : Requests) : List AuditLogEntry :=
  (ordered AuditRow.id (s.shared.auditLog.select (query.asksFor serverId))).reverse.map logEntry

def MayRead (auth serverId : ℤ) (s : Requests) : Prop :=
  (requirePermissions serverId auth .viewAuditLog).succeeds statement s.shared.pg = true

instance (auth serverId : ℤ) (s : Requests) : Decidable (MayRead auth serverId s) :=
  inferInstanceAs (Decidable (_ = true))

variable {auth serverId : ℤ} {query : AuditLogQuery} {s : Requests}

/-! ## One page -/

theorem run_onPostgres {α : Type} {h : Handler α} (hr : h.ReadOnly) (s : ModerationDb) :
    (onPostgres h).run Write.exec s = ((h.run statement s.pg).1, s) := by
  unfold onPostgres
  induction h with
  | ret a => rfl
  | fail e => rfl
  | query next ih => exact ih s.pg (hr s.pg)
  | exec w next ih => exact hr.1.elim
  | tx body next ihb ih =>
    rw [lift, run_tx, run_tx, ihb hr.1]
    rcases hbody : body.run statement s.pg with ⟨e | b, t⟩
    · rfl
    · obtain rfl := ReadOnly.eq_of_run hr.1 hbody
      exact ih b (hr.2 b)

theorem increasing_log (log : Table AuditRow.id) (p : AuditRow → Bool) :
    Increasing AuditRow.id (ordered AuditRow.id (log.select p)) :=
  increasing_ordered (log.nodup.sublist (List.filter_sublist.map _))

theorem decreasing_entries (query : AuditLogQuery) (serverId : ℤ) (s : Requests) :
    Decreasing AuditLogEntry.id (entries query serverId s) := by
  apply List.pairwise_map.mpr
  exact List.pairwise_reverse.mpr (increasing_log s.shared.auditLog _)

/-- the condition on the cursor leaves those of the rows that are older -/
theorem ordered_before (log : Table AuditRow.id) (p : AuditRow → Bool) (before : Option ℤ) :
    ordered AuditRow.id (log.select fun row => p row && before.all fun k => row.id < k) =
      (ordered AuditRow.id (log.select p)).filter fun row => before.all fun k => row.id < k := by
  apply eq_of_increasing (increasing_log log _) ((increasing_log log p).filter _)
  intro row
  simp [mem_ordered, and_assoc]

theorem auditPage_eq (h : MayRead auth serverId s) (before : Option ℤ) :
    auditPage auth serverId query s before =
      .ok ((older AuditLogEntry.id before (entries query serverId s)).take query.pageSize) := by
  obtain ⟨u, pg, hcheck⟩ := succeeds_iff.mp h
  have hread : (onPostgres (requirePermissions serverId auth .viewAuditLog)).run Write.exec s.shared =
      (.ok u, s.shared) := by
    rw [run_onPostgres readOnly_requirePermissions, hcheck]
  have hasks : ∀ row, ({ query with before } : AuditLogQuery).asksFor serverId row = query.asksFor serverId row :=
    fun row => rfl
  rw [auditPage, getAuditLog, run_bind_of_ok hread, run_bind_of_ok (run_select _), run_pure, selectAuditLog]
  simp only [hasks]
  rw [ordered_before, ← List.filter_reverse, List.map_take, older, entries, List.filter_map]
  rfl

/-! ## The log grows -/

/-- entries of the server stay in the log -/
theorem mem_exec {w : Write} {s t : ModerationDb} {n : ℕ} {row : AuditRow} (hw : Allowed serverId w)
    (h : w.exec s = .ok (n, t)) (hrow : row ∈ s.auditLog) (hserver : row.serverId = serverId) : row ∈ t.auditLog := by
  cases w with
  | sql w =>
    obtain ⟨⟨n', pg⟩, -, h⟩ := map_eq_ok.mp h
    obtain ⟨-, rfl⟩ := Prod.mk.inj h
    cases w with
    | deleteServer id =>
      have hne : serverId ≠ id := by
        intro heq
        exact hw (by rw [heq])
      apply List.mem_filter.mpr
      exact ⟨hrow, by simp [hserver, hne]⟩
    | _ => exact hrow
  | insertWarning row' =>
    obtain ⟨-, -, hlog⟩ := exec_insertWarning h
    rw [hlog]
    exact hrow
  | deleteWarning id server =>
    obtain ⟨-, rfl⟩ := Prod.mk.inj (Except.ok.inj h)
    exact hrow
  | insertAudit row' =>
    rw [← Table.mem_rows, (exec_insertAudit hw h).1]
    exact List.mem_append_left _ hrow

theorem entries_subset {t : Requests}
    (h : ∀ row ∈ s.shared.auditLog, row.serverId = serverId → row ∈ t.shared.auditLog) :
    entries query serverId s ⊆ entries query serverId t := by
  intro x hx
  simp only [entries, List.mem_map, List.mem_reverse, mem_ordered, Table.mem_select] at hx ⊢
  obtain ⟨row, ⟨hrow, hasks⟩, rfl⟩ := hx
  have hserver : row.serverId = serverId := by
    simp only [AuditLogQuery.asksFor, Bool.and_eq_true, decide_eq_true_eq] at hasks
    exact hasks.1.1
  exact ⟨row, ⟨h row hrow hserver, hasks⟩, rfl⟩

/-- the calls of the state do not delete the server -/
abbrev Spares (serverId : ℤ) (s : Requests) : Prop := s.AllLinked (Allowed serverId) opens closes

theorem spares_run (hs : Spares serverId s) {moves : List (Move Request)}
    (h : .issue (.other (.deleteServer serverId)) ∉ moves) :
    Spares serverId (run step s moves) ∧
      ∀ row ∈ s.shared.auditLog, row.serverId = serverId → row ∈ (run step s moves).shared.auditLog := by
  induction moves generalizing s with
  | nil =>
    refine ⟨hs, ?_⟩
    intro row hrow _
    exact hrow
  | cons o moves ih =>
    rw [List.mem_cons, not_or] at h
    have hs' : Spares serverId (step s o) := by
      apply Calls.allLinked_step _ hs
      intro r hr
      apply linked_start
      rintro rfl
      exact h.1 hr.symm
    obtain ⟨hrun, hkept⟩ := ih hs' h.2
    refine ⟨hrun, ?_⟩
    intro row hrow hserver
    apply hkept row _ hserver
    obtain ⟨w, n, -, hw, hexec⟩ | ⟨-, hshared⟩ := Calls.shared_step_cases start disconnected o hs
    · exact mem_exec hw hexec hrow hserver
    · rw [step, hshared]
      exact hrow

theorem growing_visits (hs : Spares serverId s) {parts : List (List (Move Request))}
    (h : ∀ moves ∈ parts, .issue (.other (.deleteServer serverId)) ∉ moves) :
    Growing AuditLogEntry.id (entries query serverId) (visits s parts) ∧
      ∀ t ∈ visits s parts, entries query serverId s ⊆ entries query serverId t := by
  induction parts generalizing s with
  | nil => exact ⟨⟨by simp [visits], List.Pairwise.nil⟩, by simp [visits]⟩
  | cons moves parts ih =>
    obtain ⟨hrun, hkept⟩ := spares_run hs (h moves List.mem_cons_self)
    obtain ⟨hgrowing, hlater⟩ := ih hrun fun moves' hmoves' => h moves' (List.mem_cons_of_mem _ hmoves')
    have hfirst : entries query serverId s ⊆ entries query serverId (run step s moves) := entries_subset hkept
    refine ⟨⟨fun t _ => decreasing_entries query serverId t, ?_⟩, ?_⟩
    · exact List.pairwise_cons.mpr ⟨hlater, hgrowing.grows⟩
    · intro t ht
      rcases List.mem_cons.mp ht with rfl | ht
      · exact hfirst
      · exact List.Subset.trans hfirst (hlater t ht)

/-- **A walk over a log that is being written.** -/
theorem auditWalk_complete (pg : Postgres) (auth serverId : ℤ) (query : AuditLogQuery)
    (parts : List (List (Move Request))) (h : ∀ moves ∈ parts, .issue (.other (.deleteServer serverId)) ∉ moves)
    (hmay : ∀ s ∈ visits (init pg) parts, MayRead auth serverId s) :
    ∃ r, auditWalk auth serverId query (visits (init pg) parts) = .ok r ∧
      (∀ pages ∈ r, Decreasing AuditLogEntry.id pages.flatten ∧
        (∀ s ∈ (visits (init pg) parts).head?, entries query serverId s ⊆ pages.flatten) ∧
        ∀ x ∈ pages.flatten, ∃ s ∈ visits (init pg) parts, x ∈ entries query serverId s) ∧
      ∀ s ∈ (visits (init pg) parts).getLast?, (entries query serverId s).length < (visits (init pg) parts).length →
        r.isSome = true := by
  have hs : Spares serverId (init pg) := by simp [Spares, Calls.AllLinked, init]
  have hpos : 0 < query.pageSize := by
    unfold AuditLogQuery.pageSize
    omega
  have hpage : ∀ s ∈ visits (init pg) parts, ∀ before, auditPage auth serverId query s before =
      .ok ((older AuditLogEntry.id before (entries query serverId s)).take query.pageSize) :=
    fun s hmem before => auditPage_eq (hmay s hmem) before
  exact liveWalk_complete hpos hpage (growing_visits hs h).1

/-- the log has two entries at the first request, and a third one is written before the second -/
def whileWritten : List (List (Move Request)) :=
  [repeated, [warnTwo 40, .advance 3, .advance 3, .advance 3, .advance 3, .advance 3], [], []]

theorem auditWalk_complete_whileWritten :
    ∃ r, auditWalk 1 100 ⟨none, none, none, some 1⟩ (visits (init joined.pg) whileWritten) = .ok r ∧
      (∀ pages ∈ r, Decreasing AuditLogEntry.id pages.flatten ∧
        (∀ s ∈ (visits (init joined.pg) whileWritten).head?,
          entries ⟨none, none, none, some 1⟩ 100 s ⊆ pages.flatten) ∧
        ∀ x ∈ pages.flatten, ∃ s ∈ visits (init joined.pg) whileWritten,
          x ∈ entries ⟨none, none, none, some 1⟩ 100 s) ∧
      ∀ s ∈ (visits (init joined.pg) whileWritten).getLast?,
        (entries ⟨none, none, none, some 1⟩ 100 s).length < (visits (init joined.pg) whileWritten).length →
          r.isSome = true :=
  auditWalk_complete joined.pg 1 100 ⟨none, none, none, some 1⟩ whileWritten (by decide) (by decide)

end Lumiere.Routes.Warnings
