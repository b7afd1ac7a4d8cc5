/-
The PostgreSQL side of a server (`migrations/postgres/20260329000001_initial.sql`): users, servers, channels, roles,
members, role assignments, overrides, invites, bans and the recipients of direct messages.

A table keeps its primary key. The foreign keys and the VARCHAR bounds are checked by the statements that can break
them, and a DELETE takes the rows with it that reference what it deletes (`ON DELETE CASCADE`, `ON DELETE SET NULL`).
`updated_at` and the columns that no handler reads are left out.
-/
import Lumiere.Core.Str
import Lumiere.Core.Table
import Lumiere.Models.Snowflake

namespace Lumiere.Db

open Lumiere.Core Lumiere.Models

/-! ## Tables -/

structure User where
  id : ℤ
  username : String
  discriminator : ℤ
  passwordHash : String
  avatar : Option String
  banner : Option String
  bio : Option String
  flags : ℤ
  isBot : Bool
  deletedAt : Option DateTime
deriving DecidableEq, Repr

structure Server where
  id : ℤ
  name : String
  icon : Option String
  banner : Option String
  description : Option String
  ownerId : ℤ
  region : Option String
  features : List String
  verificationLevel : ℤ
  defaultMessageNotifications : ℤ
  explicitContentFilter : ℤ
  systemChannelId : Option ℤ
  rulesChannelId : Option ℤ
  maxMembers : ℤ
  memberCount : ℤ
  createdAt : DateTime
deriving DecidableEq, Repr

structure Channel where
  id : ℤ
  serverId : Option ℤ
  parentId : Option ℤ
  type : ℤ
  name : Option String
  topic : Option String
  position : ℤ
  bitrate : Option ℤ
  userLimit : Option ℤ
  rateLimit : ℤ
  nsfw : Bool
  lastMessageId : Option ℤ
  icon : Option String
  e2eeEnabled : Bool
  createdAt : DateTime
deriving DecidableEq, Repr

structure Role where
  id : ℤ
  serverId : ℤ
  name : String
  color : ℤ
  hoist : Bool
  icon : Option String
  position : ℤ
  /-- the BIGINT column, as a word -/
  permissions : BitVec 64
  mentionable : Bool
  isDefault : Bool
  createdAt : DateTime
deriving DecidableEq, Repr

structure ServerMember where
  serverId : ℤ
  userId : ℤ
  nickname : Option String
  avatar : Option String
  joinedAt : DateTime
  communicationDisabledUntil : Option DateTime
  flags : ℤ
deriving DecidableEq, Repr

structure MemberRole where
  serverId : ℤ
  userId : ℤ
  roleId : ℤ
deriving DecidableEq, Repr

structure PermissionOverrideRow where
  channelId : ℤ
  targetId : ℤ
  targetType : ℤ
  allowBits : BitVec 64
  denyBits : BitVec 64
deriving DecidableEq, Repr

structure Invite where
  code : String
  serverId : ℤ
  channelId : ℤ
  inviterId : Option ℤ
  maxUses : ℤ
  uses : ℤ
  maxAge : ℤ
  temporary : Bool
  createdAt : DateTime
deriving DecidableEq, Repr

structure Ban where
  serverId : ℤ
  userId : ℤ
  reason : Option String
  bannedBy : Option ℤ
deriving DecidableEq, Repr

structure DmRecipient where
  channelId : ℤ
  userId : ℤ
deriving DecidableEq, Repr

structure Postgres where
  users : Table User.id
  servers : Table Server.id
  channels : Table Channel.id
  roles : Table Role.id
  serverMembers : Table fun m : ServerMember => (m.serverId, m.userId)
  memberRoles : Table fun m : MemberRole => (m.serverId, m.userId, m.roleId)
  permissionOverrides : Table fun o : PermissionOverrideRow => (o.channelId, o.targetId)
  invites : Table Invite.code
  bans : Table fun b : Ban => (b.serverId, b.userId)
  dmRecipients : Table fun r : DmRecipient => (r.channelId, r.userId)

/-! ## Errors -/

inductive DbError where
  | tooLong (n : ℕ)
  | nulByte
  | outOfRange
  | duplicateKey (constraint : String)
  | foreignKey (table constraint : String)
  | rowNotFound
deriving DecidableEq, Repr

def DbError.display : DbError → String
  | .tooLong n => "error returned from database: value too long for type character varying(" ++ toString n ++ ")"
  | .nulByte => "error returned from database: invalid byte sequence for encoding \"UTF8\": 0x00"
  | .outOfRange => "error returned from database: integer out of range"
  | .duplicateKey c => "error returned from database: duplicate key value violates unique constraint \"" ++ c ++ "\""
  | .foreignKey t c => "error returned from database: insert or update on table \"" ++ t ++
      "\" violates foreign key constraint \"" ++ c ++ "\""
  | .rowNotFound => "no rows returned by a query that expected to return at least one row"

/-- a text assigned to a VARCHAR(n) column: excess blanks are cut, other excess is an error -/
def varchar (n : ℕ) (s : String) : Except DbError String :=
  if s.toList.any fun c => c.toNat = 0 then .error .nulByte
  else if s.length ≤ n then .ok s
  else if (s.toList.drop n).all (· = ' ') then .ok (String.ofList (s.toList.take n))
  else .error (.tooLong n)

/-- the same for a column that may be null -/
def varchar? (n : ℕ) : Option String → Except DbError (Option String)
  | some s => (varchar n s).map some
  | none => .ok none

/-- a BIGINT value assigned to an INTEGER column -/
def integer (v : ℤ) : Except DbError ℤ :=
  if -2147483648 ≤ v ∧ v ≤ 2147483647 then .ok v else .error .outOfRange

def requires (e : DbError) (b : Bool) : Except DbError Unit := if b then .ok () else .error e

def unique {α κ : Type} [DecidableEq κ] {key : α → κ} (constraint : String) (t : Table key) (a : α) :
    Except DbError (Table key) :=
  match t.insert? a with
  | some t' => .ok t'
  | none => .error (.duplicateKey constraint)

section Except

variable {ε α β : Type}

theorem bind_eq_ok {x : Except ε α} {f : α → Except ε β} {b : β} : (x >>= f) = .ok b ↔ ∃ a, x = .ok a ∧ f a = .ok b := by
  rcases x with e | a
  · exact ⟨fun h => (nomatch h), fun ⟨_, h, _⟩ => (nomatch h)⟩
  · exact ⟨fun h => ⟨a, rfl, h⟩, fun ⟨_, h, hf⟩ => Except.ok.inj h ▸ hf⟩

theorem pure_eq_ok {a b : α} : (pure a : Except ε α) = .ok b ↔ a = b := ⟨Except.ok.inj, congrArg _⟩

theorem map_eq_ok {x : Except ε α} {f : α → β} {b : β} : f <$> x = .ok b ↔ ∃ a, x = .ok a ∧ f a = b := by
  rcases x with e | a
  · exact ⟨fun h => (nomatch h), fun ⟨_, h, _⟩ => (nomatch h)⟩
  · exact ⟨fun h => ⟨a, rfl, Except.ok.inj h⟩, fun ⟨_, h, hf⟩ => Except.ok.inj h ▸ congrArg _ hf⟩

theorem mapError_eq_ok {ε' : Type} {x : Except ε α} {f : ε → ε'} {a : α} : x.mapError f = .ok a ↔ x = .ok a := by
  cases x <;> simp [Except.mapError]

end Except

theorem requires_eq_ok {e : DbError} {b : Bool} {u : Unit} : requires e b = .ok u ↔ b = true := by
  cases b <;> simp [requires]

theorem unique_eq_ok {α κ : Type} [DecidableEq κ] {key : α → κ} {c : String} {t t' : Table key} {a : α} :
    unique c t a = .ok t' ↔ t.insert? a = some t' := by
  rw [unique]
  cases t.insert? a <;> simp

/-- a text in a VARCHAR(n) column, without the blanks that it has too many -/
def fitted (n : ℕ) (s : String) : String := String.ofList (s.toList.take n)

theorem length_fitted (n : ℕ) (s : String) : (fitted n s).length = min n s.length := by
  rw [fitted, String.length_ofList, List.length_take, String.length_toList]

theorem fitted_eq_iff {n : ℕ} {s : String} : fitted n s = s ↔ s.length ≤ n := by
  constructor
  · intro h
    rw [← h, length_fitted]
    exact Nat.min_le_left ..
  · intro h
    rw [fitted, List.take_of_length_le (String.length_toList ▸ h), String.ofList_toList]

theorem varchar_eq_ok {n : ℕ} {s s' : String} (h : varchar n s = .ok s') : s' = fitted n s := by
  unfold varchar at h
  split at h
  · nomatch h
  split at h
  · rename_i hlength
    rw [← Except.ok.inj h, fitted_eq_iff.2 hlength]
  split at h
  · exact (Except.ok.inj h).symm
  · nomatch h

/-! ## Deletes -/

theorem Channel.id_uncategorized (c : Channel) : ({ c with parentId := none } : Channel).id = c.id := rfl

theorem User.id_deleted (now : DateTime) (u : User) : ({ u with deletedAt := some now } : User).id = u.id := rfl

theorem Server.id_owned (ownerId : ℤ) (s : Server) : ({ s with ownerId } : Server).id = s.id := rfl

namespace Postgres

variable (pg : Postgres)

def deleteChannels (p : Channel → Bool) : Postgres :=
  let gone (id : ℤ) : Bool := pg.channels.any fun c => p c && c.id = id
  { pg with
    channels := (pg.channels.deleteWhere p).updateWhere (fun c => c.parentId.any gone)
      (fun c => { c with parentId := none }) fun _ => rfl
    servers := (pg.servers.updateWhere (fun s => s.systemChannelId.any gone)
      (fun s => { s with systemChannelId := none }) fun _ => rfl).updateWhere (fun s => s.rulesChannelId.any gone)
      (fun s => { s with rulesChannelId := none }) fun _ => rfl
    permissionOverrides := pg.permissionOverrides.deleteWhere fun o => gone o.channelId
    invites := pg.invites.deleteWhere fun i => gone i.channelId
    dmRecipients := pg.dmRecipients.deleteWhere fun r => gone r.channelId }

def deleteRoles (p : Role → Bool) : Postgres :=
  { pg with
    roles := pg.roles.deleteWhere p
    memberRoles := pg.memberRoles.deleteWhere fun m => pg.roles.any fun r => p r && r.id = m.roleId }

def deleteServerMembers (p : ServerMember → Bool) : Postgres :=
  { pg with
    serverMembers := pg.serverMembers.deleteWhere p
    memberRoles := pg.memberRoles.deleteWhere fun m =>
      pg.serverMembers.any fun sm => p sm && (sm.serverId = m.serverId && sm.userId = m.userId) }

def deleteServers (p : Server → Bool) : Postgres :=
  let gone (id : ℤ) : Bool := pg.servers.any fun s => p s && s.id = id
  let pg := ((pg.deleteChannels fun c => c.serverId.any gone).deleteRoles fun r => gone r.serverId).deleteServerMembers
    fun m => gone m.serverId
  { pg with
    servers := pg.servers.deleteWhere p
    invites := pg.invites.deleteWhere fun i => gone i.serverId
    bans := pg.bans.deleteWhere fun b => gone b.serverId }

end Postgres

end Lumiere.Db
