/-
Applications, their bots and their slash commands (`lumiere-server/src/routes/webhooks.rs`). Ownership is checked by a
statement of its own in some handlers, and by the statement that writes in others.

- `applications_isolated`: in any run, an application, its commands and the requests of its owner about it fare as if all
  other requests about applications and accounts did nothing.
- `applications_isolated_attacked`: a run in which another user tries everything.
-/
import Lumiere.Core.Interference
import Lumiere.Core.Json
import Lumiere.Routes.Profile

namespace Lumiere.Routes.Applications

open Lumiere.Core Lumiere.Core.Prog Lumiere.Models Lumiere.Db

/-! ## The tables -/

structure Application where
  id : ℤ
  ownerId : ℤ
  name : String
  description : Option String
  icon : Option String
  botId : Option ℤ
  botTokenHash : Option String
deriving DecidableEq, Repr

structure ApplicationCommand where
  id : ℤ
  applicationId : ℤ
  serverId : Option ℤ
  name : String
  description : String
  options : Value

structure ApplicationDb where
  accounts : Accounts
  /-- the ids of `servers` -/
  servers : List ℤ
  applications : Table Application.id
  commands : Table ApplicationCommand.id

/-- a column that an update of `applications` sets -/
inductive ApplicationSet where
  | name (name : String)
  | description (description : Option String)
  | botTokenHash (hash : String)

/-- a column that an update of `application_commands` sets -/
inductive CommandSet where
  | name (name : String)
  | description (description : String)
  | options (options : Value)

inductive Write where
  | account (w : AccountStmt)
  | insertServer (id : ℤ)
  | deleteServer (id : ℤ)
  | insertApplication (row : Application)
  /-- `WHERE id = $2`, for some `AND owner_id = $3` -/
  | updateApplication (set : ApplicationSet) (id : ℤ) (ownerId : Option ℤ)
  | insertCommand (row : ApplicationCommand)
  /-- `WHERE id = $2 AND application_id = $3` -/
  | updateCommand (set : CommandSet) (id applicationId : ℤ)
  /-- `WHERE id = $1 AND application_id = $2` -/
  | deleteCommand (id applicationId : ℤ)

def ApplicationSet.checked : ApplicationSet → Except DbError ApplicationSet
  | .name value => .name <$> varchar 100 value
  | .description value => .description <$> varchar? 400 value
  | .botTokenHash value => .botTokenHash <$> varchar 255 value

def ApplicationSet.apply : ApplicationSet → Application → Application
  | .name value, a => { a with name := value }
  | .description value, a => { a with description := value }
  | .botTokenHash value, a => { a with botTokenHash := some value }

@[simp] theorem ApplicationSet.apply_id (set : ApplicationSet) (a : Application) : (set.apply a).id = a.id := by
  cases set <;> rfl

@[simp] theorem ApplicationSet.apply_ownerId (set : ApplicationSet) (a : Application) :
    (set.apply a).ownerId = a.ownerId := by
  cases set <;> rfl

def CommandSet.checked : CommandSet → Except DbError CommandSet
  | .name value => .name <$> varchar 32 value
  | .description value => .description <$> varchar 100 value
  | .options value => .ok (.options value)

def CommandSet.apply : CommandSet → ApplicationCommand → ApplicationCommand
  | .name value, c => { c with name := value }
  | .description value, c => { c with description := value }
  | .options value, c => { c with options := value }

@[simp] theorem CommandSet.apply_id (set : CommandSet) (c : ApplicationCommand) : (set.apply c).id = c.id := by
  cases set <;> rfl

@[simp] theorem CommandSet.apply_applicationId (set : CommandSet) (c : ApplicationCommand) :
    (set.apply c).applicationId = c.applicationId := by
  cases set <;> rfl

def Application.isOf (id : ℤ) (ownerId : Option ℤ) (row : Application) : Bool :=
  row.id = id && ownerId.all fun owner => row.ownerId = owner

def ApplicationCommand.isOf (id applicationId : ℤ) (row : ApplicationCommand) : Bool :=
  row.id = id && row.applicationId = applicationId

theorem Application.isOf_iff {id : ℤ} {ownerId : Option ℤ} {row : Application} :
    row.isOf id ownerId = true ↔ row.id = id ∧ ∀ owner ∈ ownerId, row.ownerId = owner := by
  simp [Application.isOf, Option.all_eq_true]

theorem ApplicationCommand.isOf_iff {id applicationId : ℤ} {row : ApplicationCommand} :
    row.isOf id applicationId = true ↔ row.id = id ∧ row.applicationId = applicationId := by
  simp [ApplicationCommand.isOf]

/-- the unique indexes of `application_commands` -/
def nameIndex (serverId : Option ℤ) : DbError :=
  .duplicateKey (if serverId.isSome then "idx_commands_unique" else "idx_commands_unique_global")

/-- the indexes do not allow such a command beside the row -/
def ApplicationCommand.clashes (applicationId : ℤ) (serverId : Option ℤ) (name : String) (row : ApplicationCommand) :
    Bool :=
  row.applicationId = applicationId && row.serverId = serverId && row.name = name

theorem ApplicationCommand.clashes_iff {applicationId : ℤ} {serverId : Option ℤ} {name : String}
    {row : ApplicationCommand} : row.clashes applicationId serverId name = true ↔
      row.applicationId = applicationId ∧ row.serverId = serverId ∧ row.name = name := by
  simp [ApplicationCommand.clashes, and_assoc]

def hasApplication (s : ApplicationDb) (id : ℤ) : Bool := s.applications.any fun a => a.id = id

def insertApplication (row : Application) (s : ApplicationDb) : Except DbError (ℕ × ApplicationDb) := do
  let row := { row with
    name := ← varchar 100 row.name
    description := ← varchar? 400 row.description
    botTokenHash := ← varchar? 255 row.botTokenHash }
  let applications ← unique "applications_pkey" s.applications row
  requires (.duplicateKey "applications_bot_id_key")
    (row.botId.isNone || !s.applications.any fun a => a.botId = row.botId)
  requires (.foreignKey "applications" "applications_owner_id_fkey") (s.accounts.users.any fun u => u.id = row.ownerId)
  requires (.foreignKey "applications" "applications_bot_id_fkey")
    (row.botId.all fun id => s.accounts.users.any fun u => u.id = id)
  return (1, { s with applications })

def insertCommand (row : ApplicationCommand) (s : ApplicationDb) : Except DbError (ℕ × ApplicationDb) := do
  let row := { row with
    name := ← varchar 32 row.name
    description := ← varchar 100 row.description }
  let commands ← unique "application_commands_pkey" s.commands row
  requires (nameIndex row.serverId)
    (!s.commands.any (ApplicationCommand.clashes row.applicationId row.serverId row.name))
  requires (.foreignKey "application_commands" "application_commands_application_id_fkey")
    (hasApplication s row.applicationId)
  requires (.foreignKey "application_commands" "application_commands_server_id_fkey")
    (row.serverId.all fun id => s.servers.contains id)
  return (1, { s with commands })

/-- the indexes have it that no other command has the new name -/
def CommandSet.allowed (s : ApplicationDb) (id applicationId : ℤ) : CommandSet → Except DbError Unit
  | .name value => (s.commands.find? (ApplicationCommand.isOf id applicationId)).forM fun row =>
    requires (nameIndex row.serverId)
      (!s.commands.any fun c => c.id ≠ id && c.clashes applicationId row.serverId value)
  | _ => .ok ()

def Write.exec' : Write → ApplicationDb → Except DbError (ℕ × ApplicationDb)
  | .account w, s => (fun r => (r.1, { s with accounts := r.2 })) <$> s.accounts.exec w
  | .insertServer id, s => do
    requires (.duplicateKey "servers_pkey") (!s.servers.contains id)
    return (1, { s with servers := s.servers ++ [id] })
  | .deleteServer id, s =>
    .ok (s.servers.count id, { s with
      servers := s.servers.filter (· ≠ id)
      commands := s.commands.deleteWhere fun c => c.serverId = some id })
  | .insertApplication row, s => Applications.insertApplication row s
  | .updateApplication set id ownerId, s => do
    let set ← set.checked
    return (s.applications.count (Application.isOf id ownerId), { s with
      applications := s.applications.updateWhere (Application.isOf id ownerId) set.apply set.apply_id })
  | .insertCommand row, s => Applications.insertCommand row s
  | .updateCommand set id applicationId, s => do
    let set ← set.checked
    set.allowed s id applicationId
    return (s.commands.count (ApplicationCommand.isOf id applicationId), { s with
      commands := s.commands.updateWhere (ApplicationCommand.isOf id applicationId) set.apply set.apply_id })
  | .deleteCommand id applicationId, s =>
    .ok (s.commands.count (ApplicationCommand.isOf id applicationId),
      { s with commands := s.commands.deleteWhere (ApplicationCommand.isOf id applicationId) })

/-- a statement as the handlers see it -/
def Write.exec (w : Write) (s : ApplicationDb) : Except AppError (ℕ × ApplicationDb) := (w.exec' s).mapError dbErr

abbrev ApplicationHandler := Prog ApplicationDb Write AppError

/-! ## The handlers -/

structure CreateApplicationRequest where
  name : String
  description : Option String
deriving DecidableEq, Repr

/-- the response to `create_application` -/
structure CreatedApplication where
  id : Snowflake
  name : String
  botId : Snowflake
  botToken : String
deriving DecidableEq, Repr

/-- what a request draws on its way -/
structure Draws where
  appId : Snowflake
  botUserId : Snowflake
  nanoid : String
  now : DateTime
deriving DecidableEq, Repr

-- `base64` and `hash` (SHA-256 in hexadecimal) are library functions
variable (base64 hash : String → String)

/-- `Bot {}.{}` -/
def botToken (botId : Snowflake) (nanoid : String) : String :=
  "Bot " ++ base64 (toString botId.value) ++ "." ++ nanoid

def botAccount (body : CreateApplicationRequest) (draws : Draws) : Account :=
  { newAccount draws.botUserId.toI64 (body.name ++ " Bot")
      ("bot+" ++ toString draws.appId.value ++ "@lumiere.internal")
      (hash (botToken base64 draws.botUserId draws.nanoid)) draws.now with
    isBot := true }

def createApplication (auth : ℤ) (body : CreateApplicationRequest) (draws : Draws) :
    ApplicationHandler CreatedApplication := do
  atomically do
    execute (.account (.insertUser (botAccount base64 hash body draws)))
    execute (.insertApplication ⟨draws.appId.toI64, auth, body.name, body.description, none, some draws.botUserId.toI64,
      some (hash (botToken base64 draws.botUserId draws.nanoid))⟩)
  pure ⟨draws.appId, body.name, draws.botUserId, botToken base64 draws.botUserId draws.nanoid⟩

structure ApplicationResponse where
  id : ℤ
  name : String
  description : Option String
  icon : Option String
  botId : Option ℤ
deriving DecidableEq, Repr

def getMyApplications (auth : ℤ) : ApplicationHandler (List ApplicationResponse) := do
  let rows ← select fun s => s.applications.select fun a => a.ownerId = auth
  pure (rows.map fun r => ⟨r.id, r.name, r.description, r.icon, r.botId⟩)

/-- serde reads a description of null as none at all; `icon` is not read -/
structure UpdateApplicationRequest where
  name : Option String
  description : Option (Option String)
deriving DecidableEq, Repr

def updateApplication (auth appId : ℤ) (body : UpdateApplicationRequest) : ApplicationHandler Unit := do
  body.name.forM fun name => execute (.updateApplication (.name name) appId auth)
  body.description.forM fun description => execute (.updateApplication (.description description) appId auth)

def resetBotToken (auth appId : ℤ) (nanoid : String) : ApplicationHandler String := do
  let found ← select fun s => (s.applications.find? fun a => a.id = appId && a.ownerId = auth).bind Application.botId
  let botId ← orFail (.notFound "Application not found") found
  execute (.updateApplication (.botTokenHash (hash (botToken base64 (.ofI64 botId) nanoid))) appId none)
  pure (botToken base64 (.ofI64 botId) nanoid)

/-- an `options` of null is none at all -/
structure CreateCommandRequest where
  name : String
  description : String
  options : Option Value
  serverId : Option ℤ

structure CommandResponse where
  id : ℤ
  applicationId : ℤ
  name : String
  description : String
  options : Value

/-- `SELECT EXISTS(SELECT 1 FROM applications WHERE id = $1 AND owner_id = $2)` -/
def isOwner (auth appId : ℤ) : ApplicationHandler Bool :=
  select fun s => s.applications.any fun a => a.id = appId && a.ownerId = auth

/-- lengths in bytes -/
def createCommand (auth appId : ℤ) (body : CreateCommandRequest) (commandId : Snowflake) :
    ApplicationHandler CommandResponse := do
  failIf (body.name.utf8ByteSize = 0 || 32 < body.name.utf8ByteSize)
    (.badRequest "Command name must be between 1 and 32 characters")
  failIf (100 < body.description.utf8ByteSize) (.badRequest "Command description must be 100 characters or less")
  let owner ← isOwner auth appId
  failIf (!owner) (.forbidden "Not the application owner")
  execute (.insertCommand ⟨commandId.toI64, appId, body.serverId, body.name, body.description,
    body.options.getD (.array [])⟩)
  pure ⟨commandId.toI64, appId, body.name, body.description, body.options.getD (.array [])⟩

def getCommands (appId : ℤ) : ApplicationHandler (List CommandResponse) := do
  let rows ← select fun s => s.commands.select fun c => c.applicationId = appId
  pure (rows.map fun r => ⟨r.id, r.applicationId, r.name, r.description, r.options⟩)

def updateCommandHandler (auth appId commandId : ℤ) (body : Value) : ApplicationHandler Unit := do
  let owner ← isOwner auth appId
  failIf (!owner) (.forbidden "Not the application owner")
  ((body.get? "name").bind Value.asStr).forM fun name => execute (.updateCommand (.name name) commandId appId)
  ((body.get? "description").bind Value.asStr).forM fun description =>
    execute (.updateCommand (.description description) commandId appId)
  (body.get? "options").forM fun options => execute (.updateCommand (.options options) commandId appId)

def deleteCommand (auth appId commandId : ℤ) : ApplicationHandler Unit := do
  let owner ← isOwner auth appId
  failIf (!owner) (.forbidden "Not the application owner")
  execute (.deleteCommand commandId appId)

/-! ## Requests side by side -/

inductive Request where
  | createApplication (auth : ℤ) (body : CreateApplicationRequest) (draws : Draws)
  | updateApplication (auth appId : ℤ) (body : UpdateApplicationRequest)
  | resetBotToken (auth appId : ℤ) (nanoid : String)
  | createCommand (auth appId : ℤ) (body : CreateCommandRequest) (commandId : Snowflake)
  | updateCommand (auth appId commandId : ℤ) (body : Value)
  | deleteCommand (auth appId commandId : ℤ)
  | getMyApplications (auth : ℤ)
  | getCommands (appId : ℤ)
  /-- a statement of some other request -/
  | account (w : AccountStmt)
  | insertServer (id : ℤ)
  | deleteServer (id : ℤ)

def start : Request → ApplicationHandler Unit
  | .createApplication auth body draws => do
    let _ ← createApplication base64 hash auth body draws
    pure ()
  | .updateApplication auth appId body => updateApplication auth appId body
  | .resetBotToken auth appId nanoid => do
    let _ ← resetBotToken base64 hash auth appId nanoid
    pure ()
  | .createCommand auth appId body commandId => do
    let _ ← createCommand auth appId body commandId
    pure ()
  | .updateCommand auth appId commandId body => updateCommandHandler auth appId commandId body
  | .deleteCommand auth appId commandId => deleteCommand auth appId commandId
  | .getMyApplications auth => do
    let _ ← getMyApplications auth
    pure ()
  | .getCommands appId => do
    let _ ← getCommands appId
    pure ()
  | .account w => execute (.account w)
  | .insertServer id => execute (.insertServer id)
  | .deleteServer id => execute (.deleteServer id)

def cutOff : AppError := .internal "the request was cut off"

abbrev Requests := Calls Request ApplicationDb Write AppError

def init (s : ApplicationDb) : Requests := ⟨[], s⟩

abbrev step : Requests → Move Request → Requests := Calls.step (start base64 hash) Write.exec cutOff

/-! ## Part of a table -/

section Part

variable {α κ : Type} {key : α → κ} {t t' : Table key} {p q : α → Bool} {f : α → α} {a : α}

theorem rows_deleteWhere : (t.deleteWhere p).rows = t.rows.filter fun a => !p a := rfl

theorem rows_updateWhere (hf : ∀ a, key (f a) = key a) :
    (t.updateWhere p f hf).rows = t.rows.map fun a => if p a then f a else a := rfl

theorem filter_part (h : ∀ a, p a = true → q a = false) : (fun a => !q a && p a) = p := by
  funext a
  cases hp : p a with
  | false => simp
  | true => simp [h a hp]

theorem count_part (h : ∀ a, p a = true → q a = false) : (t.deleteWhere q).count p = t.count p := by
  rw [Table.count, Table.deleteWhere, List.countP_filter, Table.count]
  congr 1
  funext a
  rw [Bool.and_comm]
  exact congrFun (filter_part h) a

theorem any_part (h : ∀ a, p a = true → q a = false) : (t.deleteWhere q).any p = t.any p := by
  rw [Table.any, Table.deleteWhere, List.any_filter, filter_part h, Table.any]

theorem find?_part (h : ∀ a, p a = true → q a = false) : (t.deleteWhere q).find? p = t.find? p := by
  rw [Table.find?, Table.deleteWhere, List.find?_filter, Table.find?]
  congr 1
  funext a
  cases hp : p a with
  | false => simp
  | true => simp [h a hp]

theorem select_part (h : ∀ a, p a = true → q a = false) : (t.deleteWhere q).select p = t.select p := by
  rw [Table.select, Table.deleteWhere, List.filter_filter, Table.select]
  congr 1
  funext a
  rw [Bool.and_comm]
  exact congrFun (filter_part h) a

theorem updateWhere_part (hf : ∀ a, key (f a) = key a) (hq : ∀ a, q (f a) = q a) :
    (t.deleteWhere q).updateWhere p f hf = (t.updateWhere p f hf).deleteWhere q := by
  apply Table.ext_rows
  rw [rows_updateWhere, rows_deleteWhere, rows_deleteWhere, rows_updateWhere, List.filter_map]
  congr 2
  funext a
  simp only [Function.comp]
  split_ifs
  · rw [hq]
  · rfl

theorem part_updateWhere (hf : ∀ a, key (f a) = key a) (hq : ∀ a, q (f a) = q a)
    (h : ∀ a ∈ t, p a = true → q a = true) :
    (t.updateWhere p f hf).deleteWhere q = t.deleteWhere q := by
  rw [← updateWhere_part hf hq]
  apply Table.ext_rows
  conv_rhs => rw [← List.map_id (t.deleteWhere q).rows]
  apply List.map_congr_left
  intro a ha
  obtain ⟨hmem, hkept⟩ := Table.mem_deleteWhere.mp ha
  rw [if_neg]
  · rfl
  · intro hp
    rw [h a hmem hp] at hkept
    cases hkept

theorem deleteWhere_part : (t.deleteWhere q).deleteWhere p = (t.deleteWhere p).deleteWhere q := by
  apply Table.ext_rows
  simp [Table.deleteWhere, List.filter_filter, Bool.and_comm]

theorem part_deleteWhere (h : ∀ a, p a = true → q a = true) : (t.deleteWhere p).deleteWhere q = t.deleteWhere q := by
  rw [← deleteWhere_part]
  rw [Table.deleteWhere_eq_self]
  intro a ha
  have hkept := (Table.mem_deleteWhere.mp ha).2
  cases hp : p a with
  | false => rfl
  | true =>
    rw [h a hp] at hkept
    cases hkept

variable [DecidableEq κ]

theorem insert?_part (hq : q a = false) (h : ∀ b ∈ t, q b = true → key b ≠ key a) :
    (t.deleteWhere q).insert? a = (t.insert? a).map fun t' => t'.deleteWhere q := by
  rcases hinsert : t.insert? a with _ | t'
  · obtain ⟨b, hb, hkey⟩ := Table.insert?_eq_none hinsert
    have hkept : b ∈ t.deleteWhere q := by
      rw [Table.mem_deleteWhere]
      refine ⟨hb, ?_⟩
      rw [← Bool.not_eq_true]
      intro hqb
      exact h b hb hqb hkey
    rcases hpart : (t.deleteWhere q).insert? a with _ | t''
    · rfl
    · exact absurd hkey ((Table.insert?_eq_some hpart).1 b hkept)
  · rcases hpart : (t.deleteWhere q).insert? a with _ | t''
    · obtain ⟨b, hb, hkey⟩ := Table.insert?_eq_none hpart
      exact absurd hkey ((Table.insert?_eq_some hinsert).1 b (Table.mem_deleteWhere.mp hb).1)
    · apply congrArg some
      apply Table.ext_rows
      rw [Table.rows_insert? hpart, rows_deleteWhere, rows_deleteWhere, Table.rows_insert? hinsert, List.filter_append]
      simp [hq]

theorem unique_part {constraint : String} (hq : q a = false) (h : ∀ b ∈ t, q b = true → key b ≠ key a) :
    unique constraint (t.deleteWhere q) a = (fun t' => t'.deleteWhere q) <$> unique constraint t a := by
  rw [unique, unique, insert?_part hq h]
  cases t.insert? a <;> rfl

theorem part_insert? (hq : q a = true) (h : t.insert? a = some t') : t'.deleteWhere q = t.deleteWhere q := by
  apply Table.ext_rows
  rw [rows_deleteWhere, Table.rows_insert? h, List.filter_append, rows_deleteWhere]
  simp [hq]

end Part

/-! ## One application -/

/-- an application's part of the database: its row, its commands, and the servers that commands may be for -/
def part (appId : ℤ) (s : ApplicationDb) : ApplicationDb where
  accounts := ⟨.empty, .empty⟩
  servers := s.servers
  applications := s.applications.deleteWhere fun a => a.id ≠ appId
  commands := s.commands.deleteWhere fun c => c.applicationId ≠ appId

/-- the requests about an application: those of its owner that name it, those that read its commands, and those that
create and delete servers -/
def Concerns (appId ownerId : ℤ) : Request → Prop
  | .updateApplication auth id _ | .resetBotToken auth id _ | .createCommand auth id _ _ | .updateCommand auth id _ _
  | .deleteCommand auth id _ => auth = ownerId ∧ id = appId
  | .getCommands id => id = appId
  | .insertServer _ | .deleteServer _ => True
  | .createApplication .. | .getMyApplications _ | .account _ => False

instance (appId ownerId : ℤ) : DecidablePred (Concerns appId ownerId)
  | .updateApplication auth id _ | .resetBotToken auth id _ | .createCommand auth id _ _ | .updateCommand auth id _ _
  | .deleteCommand auth id _ => inferInstanceAs (Decidable (auth = ownerId ∧ id = appId))
  | .getCommands id => inferInstanceAs (Decidable (id = appId))
  | .insertServer _ | .deleteServer _ => isTrue trivial
  | .createApplication .. | .getMyApplications _ | .account _ => isFalse id

/-- the id that a request draws for a command -/
def Request.commandId : Request → Option ℤ
  | .createCommand _ _ _ commandId => some commandId.toI64
  | _ => none

def drawnIn : Move Request → Option ℤ
  | .issue r => r.commandId
  | _ => none

/-- the run in which requests that do not concern the application do nothing -/
abbrev stepAlone (appId ownerId : ℤ) : Requests → Move Request → Requests :=
  Calls.step (Calls.only (Concerns appId ownerId) (start base64 hash)) Write.exec cutOff

/-- no other application has a command with an id that this one has been promised -/
structure Owned (appId ownerId : ℤ) (promised : List ℤ) (s : ApplicationDb) : Prop where
  owner : ∃ row ∈ s.applications, row.id = appId ∧ row.ownerId = ownerId
  apart : ∀ c ∈ s.commands, c.applicationId ≠ appId → c.id ∉ promised

/-- a statement of a request that concerns the application -/
def Write.isOwn (appId ownerId : ℤ) (promised : List ℤ) : Write → Prop
  | .updateApplication _ id owner => id = appId ∧ owner.all (· = ownerId)
  | .insertCommand row => row.applicationId = appId ∧ row.id ∈ promised
  | .updateCommand _ _ id | .deleteCommand _ id => id = appId
  | .insertServer _ | .deleteServer _ => True
  | .account _ | .insertApplication _ => False

/-- a statement of another request -/
def Write.isOther (appId ownerId : ℤ) (promised : List ℤ) : Write → Prop
  | .updateApplication _ id owner => id ≠ appId ∨ ∃ other ∈ owner, other ≠ ownerId
  | .insertCommand row => row.applicationId ≠ appId ∧ row.id ∉ promised
  | .updateCommand _ _ id | .deleteCommand _ id => id ≠ appId
  | .account _ | .insertApplication _ => True
  | .insertServer _ | .deleteServer _ => False

variable {appId ownerId : ℤ} {promised : List ℤ} {s t : ApplicationDb} {n : ℕ}

theorem Owned.owner_eq (h : Owned appId ownerId promised s) {a : Application} (ha : a ∈ s.applications)
    (hid : a.id = appId) : a.ownerId = ownerId := by
  obtain ⟨b, hb, hbid, howner⟩ := h.owner
  rw [Table.eq_of_key_eq ha hb (hid.trans hbid.symm), howner]

theorem insertApplication_eq_ok {row : Application} (h : insertApplication row s = .ok (n, t)) :
    ∃ row' applications, row'.id = row.id ∧ s.applications.insert? row' = some applications ∧
      t = { s with applications } := by
  simp only [insertApplication, bind_eq_ok, pure_eq_ok, unique_eq_ok, Prod.mk.injEq] at h
  obtain ⟨name, -, description, -, tokenHash, -, applications, hinsert, -, -, -, -, -, -, -, rfl⟩ := h
  exact ⟨{ row with name, description, botTokenHash := tokenHash }, applications, rfl, hinsert, rfl⟩

theorem insertCommand_eq_ok {row : ApplicationCommand} (h : insertCommand row s = .ok (n, t)) :
    ∃ row' commands, row'.id = row.id ∧ row'.applicationId = row.applicationId ∧
      s.commands.insert? row' = some commands ∧ t = { s with commands } := by
  simp only [insertCommand, bind_eq_ok, pure_eq_ok, unique_eq_ok, Prod.mk.injEq] at h
  obtain ⟨name, -, description, -, commands, hinsert, -, -, -, -, -, -, -, rfl⟩ := h
  exact ⟨{ row with name, description }, commands, rfl, rfl, hinsert, rfl⟩

theorem updateApplication_eq_ok {set : ApplicationSet} {id : ℤ} {owner : Option ℤ}
    (h : (Write.updateApplication set id owner).exec' s = .ok (n, t)) :
    ∃ set' : ApplicationSet, t = { s with
      applications := s.applications.updateWhere (Application.isOf id owner) set'.apply set'.apply_id } := by
  obtain ⟨set', -, hr⟩ := bind_eq_ok.mp h
  exact ⟨set', ((Prod.mk.inj (Except.ok.inj hr)).2).symm⟩

theorem updateCommand_eq_ok {set : CommandSet} {id applicationId : ℤ}
    (h : (Write.updateCommand set id applicationId).exec' s = .ok (n, t)) :
    ∃ set' : CommandSet, t = { s with
      commands := s.commands.updateWhere (ApplicationCommand.isOf id applicationId) set'.apply set'.apply_id } := by
  obtain ⟨set', -, hr⟩ := bind_eq_ok.mp h
  obtain ⟨-, -, hr⟩ := bind_eq_ok.mp hr
  exact ⟨set', ((Prod.mk.inj (Except.ok.inj hr)).2).symm⟩

/-- a statement of any request keeps the owner, and the promise -/
theorem owned_exec {w : Write} (hw : w.isOwn appId ownerId promised ∨ w.isOther appId ownerId promised)
    (h : Owned appId ownerId promised s) (hexec : w.exec' s = .ok (n, t)) : Owned appId ownerId promised t := by
  cases w with
  | account w =>
    obtain ⟨r, -, hr⟩ := map_eq_ok.mp hexec
    obtain ⟨-, rfl⟩ := Prod.mk.inj hr
    exact ⟨h.owner, h.apart⟩
  | insertServer id =>
    obtain ⟨-, -, hr⟩ := bind_eq_ok.mp hexec
    obtain ⟨-, rfl⟩ := Prod.mk.inj (Except.ok.inj hr)
    exact ⟨h.owner, h.apart⟩
  | deleteServer id =>
    obtain ⟨-, rfl⟩ := Prod.mk.inj (Except.ok.inj hexec)
    refine ⟨h.owner, ?_⟩
    intro c hc
    exact h.apart c (Table.mem_deleteWhere.mp hc).1
  | insertApplication row =>
    obtain ⟨row', applications, -, hinsert, rfl⟩ := insertApplication_eq_ok hexec
    obtain ⟨a, ha, howner⟩ := h.owner
    exact ⟨⟨a, ((Table.insert?_eq_some hinsert).2 a).mpr (.inl ha), howner⟩, h.apart⟩
  | updateApplication set id owner =>
    obtain ⟨set', rfl⟩ := updateApplication_eq_ok hexec
    obtain ⟨a, ha, hid, howner⟩ := h.owner
    have hmem : (if Application.isOf id owner a then set'.apply a else a) ∈
        s.applications.updateWhere (Application.isOf id owner) set'.apply set'.apply_id :=
      Table.mem_updateWhere.mpr ⟨a, ha, rfl⟩
    refine ⟨⟨_, hmem, ?_⟩, h.apart⟩
    split_ifs
    · rw [ApplicationSet.apply_id, ApplicationSet.apply_ownerId]
      exact ⟨hid, howner⟩
    · exact ⟨hid, howner⟩
  | insertCommand row =>
    obtain ⟨row', commands, hid, happ, hinsert, rfl⟩ := insertCommand_eq_ok hexec
    refine ⟨h.owner, ?_⟩
    intro c hc hne
    rcases ((Table.insert?_eq_some hinsert).2 c).mp hc with hc | rfl
    · exact h.apart c hc hne
    · rw [happ] at hne
      rw [hid]
      rcases hw with hw | hw
      · exact absurd hw.1 hne
      · exact hw.2
  | updateCommand set id applicationId =>
    obtain ⟨set', rfl⟩ := updateCommand_eq_ok hexec
    refine ⟨h.owner, ?_⟩
    intro c hc hne
    obtain ⟨b, hb, rfl⟩ :=
      Table.mem_updateWhere.mp (show c ∈ s.commands.updateWhere _ set'.apply set'.apply_id from hc)
    split_ifs at hne ⊢
    · rw [CommandSet.apply_applicationId] at hne
      rw [CommandSet.apply_id]
      exact h.apart b hb hne
    · exact h.apart b hb hne
  | deleteCommand id applicationId =>
    obtain ⟨-, rfl⟩ := Prod.mk.inj (Except.ok.inj hexec)
    refine ⟨h.owner, ?_⟩
    intro c hc
    exact h.apart c (Table.mem_deleteWhere.mp hc).1

/-- **A statement of another request leaves the application alone.** -/
theorem part_exec {w : Write} (hw : w.isOther appId ownerId promised) (h : Owned appId ownerId promised s)
    (hexec : w.exec' s = .ok (n, t)) : part appId t = part appId s := by
  cases w with
  | account w =>
    obtain ⟨r, -, hr⟩ := map_eq_ok.mp hexec
    obtain ⟨-, rfl⟩ := Prod.mk.inj hr
    rfl
  | insertServer id => exact hw.elim
  | deleteServer id => exact hw.elim
  | insertApplication row =>
    obtain ⟨row', applications, hid, hinsert, rfl⟩ := insertApplication_eq_ok hexec
    obtain ⟨a, ha, haid, -⟩ := h.owner
    have hne : row'.id ≠ appId := by
      intro hsame
      exact (Table.insert?_eq_some hinsert).1 a ha (haid.trans hsame.symm)
    rw [part, part, part_insert? (by simp [hne]) hinsert]
  | updateApplication set id owner =>
    obtain ⟨set', rfl⟩ := updateApplication_eq_ok hexec
    rw [part, part, part_updateWhere set'.apply_id (by simp)]
    intro a ha hp
    obtain ⟨hrow, howner⟩ := Application.isOf_iff.mp hp
    apply decide_eq_true
    rw [hrow]
    intro hid
    rcases hw with hw | ⟨other, hother, hne⟩
    · exact hw hid
    · exact hne ((howner other hother).symm.trans (h.owner_eq ha (hrow.trans hid)))
  | insertCommand row =>
    obtain ⟨row', commands, -, happ, hinsert, rfl⟩ := insertCommand_eq_ok hexec
    have hne : row'.applicationId ≠ appId := by
      rw [happ]
      exact hw.1
    rw [part, part, part_insert? (by simp [hne]) hinsert]
  | updateCommand set id applicationId =>
    obtain ⟨set', rfl⟩ := updateCommand_eq_ok hexec
    rw [part, part, part_updateWhere set'.apply_id (by simp)]
    intro c _ hc
    exact decide_eq_true ((ApplicationCommand.isOf_iff.mp hc).2 ▸ hw)
  | deleteCommand id applicationId =>
    obtain ⟨-, rfl⟩ := Prod.mk.inj (Except.ok.inj hexec)
    rw [part, part, part_deleteWhere]
    intro c hc
    exact decide_eq_true ((ApplicationCommand.isOf_iff.mp hc).2 ▸ hw)

/-! ## Statements of its own requests -/

theorem count_commands (id : ℤ) : (part appId s).commands.count (ApplicationCommand.isOf id appId) =
    s.commands.count (ApplicationCommand.isOf id appId) := by
  apply count_part
  intro c hc
  simp [(ApplicationCommand.isOf_iff.mp hc).2]

theorem allowed_part (set : CommandSet) (id : ℤ) : set.allowed (part appId s) id appId = set.allowed s id appId := by
  cases set with
  | name value =>
    have hfind : (part appId s).commands.find? (ApplicationCommand.isOf id appId) =
        s.commands.find? (ApplicationCommand.isOf id appId) := by
      apply find?_part
      intro c hc
      simp [(ApplicationCommand.isOf_iff.mp hc).2]
    have hany : ∀ serverId : Option ℤ,
        ((part appId s).commands.any fun c => c.id ≠ id && c.clashes appId serverId value) =
          s.commands.any fun c => c.id ≠ id && c.clashes appId serverId value := by
      intro serverId
      apply any_part
      intro c hc
      obtain ⟨-, hclash⟩ := Bool.and_eq_true_iff.mp hc
      simp [(ApplicationCommand.clashes_iff.mp hclash).1]
    rw [CommandSet.allowed, CommandSet.allowed, hfind]
    simp only [hany]
  | description value => rfl
  | options value => rfl

theorem insertCommand_part {row : ApplicationCommand} (happ : row.applicationId = appId)
    (hfresh : ∀ c ∈ s.commands, c.applicationId ≠ appId → c.id ≠ row.id) :
    insertCommand row (part appId s) = (fun r => (r.1, part appId r.2)) <$> insertCommand row s := by
  have hunique : ∀ name description, unique "application_commands_pkey" (part appId s).commands
      { row with name, description } = (fun t' => t'.deleteWhere fun c => c.applicationId ≠ appId) <$>
        unique "application_commands_pkey" s.commands { row with name, description } := by
    intro name description
    apply unique_part
    · simp [happ]
    · intro c hc hne
      exact hfresh c hc (of_decide_eq_true hne)
  have hclash : ∀ name, (part appId s).commands.any (ApplicationCommand.clashes row.applicationId row.serverId name) =
      s.commands.any (ApplicationCommand.clashes row.applicationId row.serverId name) := by
    intro name
    apply any_part
    intro c hc
    simp [(ApplicationCommand.clashes_iff.mp hc).1, happ]
  have hhas : hasApplication (part appId s) row.applicationId = hasApplication s row.applicationId := by
    apply any_part
    intro a ha
    rw [decide_eq_true_eq] at ha
    simp [ha, happ]
  simp only [insertCommand, map_bind, map_pure, bind_map_left, hunique, hclash, hhas]
  rfl

/-- **A statement of its own requests does to the application's part what it does to it among all others.** -/
theorem exec_part {w : Write} (hw : w.isOwn appId ownerId promised) (h : Owned appId ownerId promised s) :
    w.exec' (part appId s) = (fun r => (r.1, part appId r.2)) <$> w.exec' s := by
  cases w with
  | account w => exact hw.elim
  | insertServer id =>
    rw [Write.exec', Write.exec', part]
    cases requires (.duplicateKey "servers_pkey") (!s.servers.contains id) <;> rfl
  | deleteServer id =>
    apply congrArg Except.ok
    rw [part, deleteWhere_part]
    rfl
  | insertApplication row => exact hw.elim
  | updateApplication set id owner =>
    obtain ⟨rfl, -⟩ := hw
    have hcount : (part id s).applications.count (Application.isOf id owner) =
        s.applications.count (Application.isOf id owner) := by
      apply count_part
      intro a ha
      simp [(Application.isOf_iff.mp ha).1]
    have hrows : ∀ set' : ApplicationSet, (part id s).applications.updateWhere (Application.isOf id owner) set'.apply
        set'.apply_id = (s.applications.updateWhere (Application.isOf id owner) set'.apply set'.apply_id).deleteWhere
          fun a => a.id ≠ id := by
      intro set'
      apply updateWhere_part set'.apply_id
      simp
    simp only [Write.exec', map_bind, map_pure, hcount, hrows]
    rfl
  | insertCommand row =>
    apply insertCommand_part hw.1
    intro c hc hne hid
    exact h.apart c hc hne (hid ▸ hw.2)
  | updateCommand set id applicationId =>
    obtain rfl : applicationId = appId := hw
    have hrows : ∀ set' : CommandSet, (part applicationId s).commands.updateWhere
        (ApplicationCommand.isOf id applicationId) set'.apply set'.apply_id =
          (s.commands.updateWhere (ApplicationCommand.isOf id applicationId) set'.apply set'.apply_id).deleteWhere
            fun c => c.applicationId ≠ applicationId := by
      intro set'
      apply updateWhere_part set'.apply_id
      simp
    simp only [Write.exec', map_bind, map_pure, allowed_part, count_commands, hrows]
    rfl
  | deleteCommand id applicationId =>
    obtain rfl : applicationId = appId := hw
    rw [Write.exec', Write.exec', count_commands, part, deleteWhere_part]
    rfl

/-! ## Other requests -/

theorem unheard_statement {w : Write} (hw : w.isOther appId ownerId promised) :
    (execute w : ApplicationHandler Unit).Unheard Write.exec (Owned appId ownerId promised) (part appId) := by
  apply unheard_execute
  intro s n t hs h
  have hexec := mapError_eq_ok.mp h
  exact ⟨owned_exec (.inr hw) hs hexec, part_exec hw hs hexec⟩

theorem isOwners_iff {a : Application} {id auth : ℤ} :
    (decide (a.id = id) && decide (a.ownerId = auth)) = true ↔ a.id = id ∧ a.ownerId = auth := by
  simp

/-- the check of ownership lets nobody else through to this application -/
theorem unheard_owner_bind {α : Type} {auth id : ℤ} {e : AppError} {rest : Unit → ApplicationHandler α}
    (hother : ¬ (auth = ownerId ∧ id = appId))
    (hrest : id ≠ appId → (rest ()).Unheard Write.exec (Owned appId ownerId promised) (part appId)) :
    (isOwner auth id >>= fun owner => failIf (!owner) e >>= rest).Unheard Write.exec (Owned appId ownerId promised)
      (part appId) := by
  apply unheard_select_bind
  intro s hs
  apply unheard_failIf_bind
  intro howner
  apply hrest
  intro hid
  rw [Bool.not_eq_true', Bool.not_eq_false, Table.any_eq_true] at howner
  obtain ⟨a, ha, hmatch⟩ := howner
  obtain ⟨haid, hauth⟩ := isOwners_iff.mp hmatch
  exact hother ⟨hauth.symm.trans (hs.owner_eq ha (haid.trans hid)), hid⟩

/-- **A request that does not concern the application leaves it alone,** wherever it is cut off. -/
theorem start_unheard {r : Request} (hr : ¬ Concerns appId ownerId r) (hid : ∀ id ∈ r.commandId, id ∉ promised) :
    (start base64 hash r).Unheard Write.exec (Owned appId ownerId promised) (part appId) := by
  cases r with
  | createApplication auth body draws =>
    refine unheard_bind (unheard_bind (unheard_atomically ?_) fun _ => unheard_pure _) fun _ => unheard_pure _
    exact unheard_bind (unheard_statement trivial) fun _ => unheard_statement trivial
  | updateApplication auth id body =>
    have hother : id ≠ appId ∨ ∃ other ∈ some auth, other ≠ ownerId := by
      by_cases hsame : id = appId
      · exact .inr ⟨auth, rfl, fun hauth => hr ⟨hauth, hsame⟩⟩
      · exact .inl hsame
    apply unheard_bind
    · apply unheard_forM_option
      intro name
      exact unheard_statement hother
    · intro _
      apply unheard_forM_option
      intro description
      exact unheard_statement hother
  | resetBotToken auth id nanoid =>
    refine unheard_bind (unheard_select_bind ?_) fun _ => unheard_pure _
    intro s hs
    apply unheard_orFail_bind
    intro botId hfound
    obtain ⟨row, hrow, -⟩ := Option.bind_eq_some_iff.mp hfound
    obtain ⟨hmem, hmatch⟩ := Table.mem_of_find? hrow
    obtain ⟨hrowId, hauth⟩ := isOwners_iff.mp hmatch
    refine unheard_bind (unheard_statement (.inl ?_)) fun _ => unheard_pure _
    intro hsame
    exact hr ⟨hauth.symm.trans (hs.owner_eq hmem (hrowId.trans hsame)), hsame⟩
  | createCommand auth id body commandId =>
    refine unheard_bind (unheard_failIf_bind fun _ => unheard_failIf_bind fun _ => unheard_owner_bind hr ?_)
      fun _ => unheard_pure _
    intro hne
    exact unheard_bind (unheard_statement ⟨hne, hid _ rfl⟩) fun _ => unheard_pure _
  | updateCommand auth id commandId body =>
    apply unheard_owner_bind hr
    intro hne
    refine unheard_bind ?_ fun _ => unheard_bind ?_ fun _ => ?_
    · exact unheard_forM_option fun _ => unheard_statement hne
    · exact unheard_forM_option fun _ => unheard_statement hne
    · exact unheard_forM_option fun _ => unheard_statement hne
  | deleteCommand auth id commandId =>
    apply unheard_owner_bind hr
    intro hne
    exact unheard_statement hne
  | getMyApplications auth => exact fun _ _ => trivial
  | getCommands id => exact fun _ _ => trivial
  | account w => exact unheard_statement trivial
  | insertServer id => exact absurd trivial hr
  | deleteServer id => exact absurd trivial hr

/-! ## Its own requests -/

theorem determined_statement {w : Write} (hw : w.isOwn appId ownerId promised) :
    (execute w : ApplicationHandler Unit).Determined Write.exec (Owned appId ownerId promised) (part appId) := by
  have hact : ∀ s, Owned appId ownerId promised s →
      w.exec (part appId s) = (fun r => (r.1, part appId r.2)) <$> w.exec s := by
    intro s hs
    rw [Write.exec, Write.exec, exec_part hw hs]
    cases w.exec' s <;> rfl
  apply determined_execute
  intro s t hs ht hpart
  refine sameOutcome_of_local hact ?_ hs ht hpart
  intro s n t hs h
  exact owned_exec (.inl hw) hs (mapError_eq_ok.mp h)

theorem isOwner_part (auth : ℤ) : ((part appId s).applications.any fun a => a.id = appId && a.ownerId = auth) =
    s.applications.any fun a => a.id = appId && a.ownerId = auth := by
  apply any_part
  intro a ha
  simp [(isOwners_iff.mp ha).1]

theorem determined_owner_bind {α : Type} {auth : ℤ} {e : AppError} {rest : Unit → ApplicationHandler α}
    (hrest : (rest ()).Determined Write.exec (Owned appId ownerId promised) (part appId)) :
    (isOwner auth appId >>= fun owner => failIf (!owner) e >>= rest).Determined Write.exec
      (Owned appId ownerId promised) (part appId) := by
  apply determined_bind
  · apply determined_select
    intro s t _ _ hpart
    rw [← isOwner_part, hpart, isOwner_part]
  · intro owner
    exact determined_bind determined_failIf fun _ => hrest

/-- **A request that concerns the application does what its part says.** -/
theorem start_determined {r : Request} (hr : Concerns appId ownerId r) (hid : ∀ id ∈ r.commandId, id ∈ promised) :
    (start base64 hash r).Determined Write.exec (Owned appId ownerId promised) (part appId) := by
  cases r with
  | createApplication auth body draws => exact hr.elim
  | updateApplication auth id body =>
    obtain ⟨rfl, rfl⟩ := hr
    apply determined_bind
    · apply determined_forM_option
      intro name _
      exact determined_statement ⟨rfl, by simp⟩
    · intro _
      apply determined_forM_option
      intro description _
      exact determined_statement ⟨rfl, by simp⟩
  | resetBotToken auth id nanoid =>
    obtain ⟨rfl, rfl⟩ := hr
    have hfind : ∀ s, ((part id s).applications.find? fun a => a.id = id && a.ownerId = auth) =
        s.applications.find? fun a => a.id = id && a.ownerId = auth := by
      intro s
      apply find?_part
      intro a ha
      simp [(isOwners_iff.mp ha).1]
    refine determined_bind (determined_bind ?_ fun _ => determined_bind determined_orFail fun _ => ?_)
      fun _ => determined_pure _
    · apply determined_select
      intro s t _ _ hpart
      rw [← hfind, hpart, hfind]
    · exact determined_bind (determined_statement ⟨rfl, rfl⟩) fun _ => determined_pure _
  | createCommand auth id body commandId =>
    obtain ⟨rfl, rfl⟩ := hr
    refine determined_bind (determined_bind determined_failIf fun _ => determined_bind determined_failIf fun _ =>
      determined_owner_bind ?_) fun _ => determined_pure _
    exact determined_bind (determined_statement ⟨rfl, hid _ rfl⟩) fun _ => determined_pure _
  | updateCommand auth id commandId body =>
    obtain ⟨rfl, rfl⟩ := hr
    apply determined_owner_bind
    refine determined_bind ?_ fun _ => determined_bind ?_ fun _ => ?_
    · exact determined_forM_option fun _ _ => determined_statement rfl
    · exact determined_forM_option fun _ _ => determined_statement rfl
    · exact determined_forM_option fun _ _ => determined_statement rfl
  | deleteCommand auth id commandId =>
    obtain ⟨rfl, rfl⟩ := hr
    apply determined_owner_bind
    exact determined_statement rfl
  | getMyApplications auth => exact hr.elim
  | getCommands id =>
    obtain rfl : id = appId := hr
    have hselect : ∀ s, ((part id s).commands.select fun c => c.applicationId = id) =
        s.commands.select fun c => c.applicationId = id := by
      intro s
      apply select_part
      intro c hc
      rw [decide_eq_true_eq] at hc
      simp [hc]
    refine determined_bind (determined_bind ?_ fun _ => determined_pure _) fun _ => determined_pure _
    apply determined_select
    intro s t _ _ hpart
    rw [← hselect, hpart, hselect]
  | account w => exact hr.elim
  | insertServer id => exact determined_statement trivial
  | deleteServer id => exact determined_statement trivial

/-! ## Runs -/

/-- the id that a request that concerns the application draws for a command -/
def promisedIn (appId ownerId : ℤ) : Move Request → Option ℤ
  | .issue r => if Concerns appId ownerId r then r.commandId else none
  | _ => none

variable {moves : List (Move Request)} {r : Request} {commandId : ℤ}

theorem mem_promised (hr : .issue r ∈ moves) (hconcerns : Concerns appId ownerId r) (hid : commandId ∈ r.commandId) :
    commandId ∈ moves.filterMap (promisedIn appId ownerId) := by
  rw [List.mem_filterMap]
  refine ⟨.issue r, hr, ?_⟩
  rw [promisedIn, if_pos hconcerns]
  exact hid

theorem drawn_of_promised {o : Move Request} (h : promisedIn appId ownerId o = some commandId) :
    drawnIn o = some commandId ∧ ∃ r, o = .issue r ∧ Concerns appId ownerId r := by
  cases o with
  | issue r =>
    rw [promisedIn] at h
    split_ifs at h with hconcerns
    exact ⟨h, r, rfl, hconcerns⟩
  | advance i => cases h
  | interrupt i => cases h

/-- no id is drawn twice -/
theorem not_mem_promised (hdrawn : (moves.filterMap drawnIn).Nodup) (hr : .issue r ∈ moves)
    (hother : ¬ Concerns appId ownerId r) (hid : commandId ∈ r.commandId) :
    commandId ∉ moves.filterMap (promisedIn appId ownerId) := by
  intro hmem
  obtain ⟨o, ho, hpromised⟩ := List.mem_filterMap.mp hmem
  obtain ⟨hsame, r', rfl, hconcerns⟩ := drawn_of_promised hpromised
  have hne : (.issue r : Move Request) ≠ .issue r' := by
    intro h
    obtain rfl := Move.issue.inj h
    exact hother hconcerns
  have hapart := List.pairwise_filterMap.mp hdrawn
  have hsymm : Std.Symm fun o o' : Move Request => ∀ i, drawnIn o = some i → ∀ j, drawnIn o' = some j → i ≠ j := by
    constructor
    intro o o' h i hi j hj
    exact (h j hj i hi).symm
  exact hapart.forall hr ho hne commandId hid commandId hsame rfl

/-- **An application is its owner's.** Requests of others, cut off or not, between whichever statements of his they
come, change neither its part of the database nor what becomes of his requests about it. -/
theorem applications_isolated {s₀ : ApplicationDb}
    (howner : ∃ row ∈ s₀.applications, row.id = appId ∧ row.ownerId = ownerId)
    (hdrawn : (moves.filterMap drawnIn).Nodup) (hfresh : ∀ c ∈ s₀.commands, c.id ∉ moves.filterMap drawnIn) :
    let all := Core.run (step base64 hash) (init s₀) moves
    let alone := Core.run (stepAlone base64 hash appId ownerId) (init s₀) moves
    part appId all.shared = part appId alone.shared ∧
      ∀ (i : ℕ) (c : Call Request ApplicationDb Write AppError), all.calls[i]? = some c →
        Concerns appId ownerId c.request → alone.calls[i]? = some c := by
  intro all alone
  have howned : Owned appId ownerId (moves.filterMap (promisedIn appId ownerId)) s₀ := by
    refine ⟨howner, ?_⟩
    intro c hc _ hmem
    obtain ⟨o, ho, hpromised⟩ := List.mem_filterMap.mp hmem
    exact hfresh c hc (List.mem_filterMap.mpr ⟨o, ho, (drawn_of_promised hpromised).1⟩)
  have h := Calls.undisturbed (e := cutOff) (s := init s₀) howned rfl
    (fun r hr hconcerns => start_determined base64 hash hconcerns fun _ hid => mem_promised hr hconcerns hid)
    (fun r hr hother => start_unheard base64 hash hother fun _ hid => not_mem_promised hdrawn hr hother hid)
  refine ⟨h.same, ?_⟩
  intro i c hi hconcerns
  obtain ⟨d, hd, halike⟩ := Calls.exists_of_forall₂ h.calls hi
  have hsame : c = d := by
    have hrest := (halike.own hconcerns).1
    have hrequest := halike.request
    cases c
    cases d
    rw [Call.mk.injEq]
    exact ⟨hrequest, hrest⟩
  rw [hsame]
  exact hd

/-- applications 1 of user 7 and 2 of user 8, with a command each -/
def twoOwners : ApplicationDb where
  accounts := ⟨.empty, .empty⟩
  servers := [500]
  applications := ⟨[⟨1, 7, "Music", none, none, some 11, some "h1"⟩, ⟨2, 8, "Spam", none, none, some 12, some "h2"⟩],
    by decide⟩
  commands := ⟨[⟨100, 1, none, "play", "plays", .array []⟩, ⟨200, 2, none, "play", "spams", .array []⟩], by decide⟩

/-- user 8 goes for the application of user 7, before, between and after the statements of two requests of his -/
def attack : List (Move Request) :=
  [.issue (.createCommand 7 1 ⟨"stop", "stops", none, some 500⟩ (.ofI64 101)),
    .issue (.updateApplication 8 1 ⟨some "Mine", none⟩), .issue (.resetBotToken 8 1 "n"), .advance 1, .advance 0,
    .advance 2, .issue (.createCommand 8 1 ⟨"stop", "hijacked", none, none⟩ (.ofI64 201)), .advance 3,
    .issue (.updateCommand 8 1 100 (.object [("name", .string "hijacked")])), .issue (.deleteCommand 8 1 100),
    .advance 4, .advance 0, .advance 5, .issue (.updateCommand 7 1 100 (.object [("name", .string "start")])),
    .issue (.createCommand 8 2 ⟨"start", "spams", none, none⟩ (.ofI64 202)), .advance 6, .advance 7, .advance 7,
    .advance 6]

theorem applications_isolated_attacked :
    ((Core.run (step id id) (init twoOwners) attack).shared.commands.rows.map fun c =>
        (c.id, c.applicationId, c.name)) =
        [(100, 1, "start"), (200, 2, "play"), (101, 1, "stop"), (202, 2, "start")] ∧
      part 1 (Core.run (step id id) (init twoOwners) attack).shared =
        part 1 (Core.run (stepAlone id id 1 7) (init twoOwners) attack).shared := by
  have howner : ∃ row ∈ twoOwners.applications, row.id = 1 ∧ row.ownerId = 7 := by decide
  have hdrawn : (attack.filterMap drawnIn).Nodup := by decide
  have hfresh : ∀ c ∈ twoOwners.commands, c.id ∉ attack.filterMap drawnIn := by decide
  exact ⟨by decide, (applications_isolated id id howner hdrawn hfresh).1⟩

end Lumiere.Routes.Applications
