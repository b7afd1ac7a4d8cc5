/-
The two stores of push tokens (`lumiere-push/src/lib.rs`, `pg_store.rs`): vectors for each user in memory, and the table
`device_tokens`, unique on user and token.

- `Registry`: what both are for, a platform for each user and token.
- `MemRefines`, `PgRefines`: each store is a registry, and stays one (`memStep_refines`, `pgStep_refines`).
- `interchangeable_iff`: the stores agree all along exactly if every token that is registered fits the table and every
  token that is unregistered is a text for PostgreSQL. The table refuses unknown users and long tokens, the vectors
  refuse nothing.
- `unknown_user`: a token of nobody.
-/
import Lumiere.Core.Run
import Lumiere.Db.Postgres
import Mathlib.Data.List.Sort

namespace Lumiere.Push

open Lumiere.Core Lumiere.Models Lumiere.Db

inductive Platform where
  | ios
  | android
deriving DecidableEq, Repr

structure DeviceToken where
  id : Option Snowflake
  token : String
  platform : Platform
  userId : Snowflake
  deviceName : Option String
deriving DecidableEq, Repr

/-- what the stores compare -/
def DeviceToken.pair (d : DeviceToken) : String × Platform := (d.token, d.platform)

inductive PushError where
  | tokenNotFound (userId : Snowflake)
  | apnsError (message : String)
  | fcmError (message : String)
  | invalidToken (message : String)
  | platformNotConfigured (platform : Platform)
  | internal (message : String)
deriving DecidableEq, Repr

/-! ## In memory -/

/-- a map from users to vectors -/
structure DeviceTokenStore where
  tokens : Snowflake → Option (List DeviceToken)

namespace DeviceTokenStore

def new : DeviceTokenStore := ⟨fun _ => none⟩

def register (s : DeviceTokenStore) (device : DeviceToken) : DeviceTokenStore :=
  let entries := (s.tokens device.userId).getD []
  ⟨Function.update s.tokens device.userId (some (entries.filter (fun d => d.token ≠ device.token) ++ [device]))⟩

def getTokens (s : DeviceTokenStore) (userId : Snowflake) : List DeviceToken := (s.tokens userId).getD []

def unregister (s : DeviceTokenStore) (userId : Snowflake) (token : String) : Bool × DeviceTokenStore :=
  match s.tokens userId with
  | some entries =>
    let kept := entries.filter fun d => d.token ≠ token
    (kept.length < entries.length, ⟨Function.update s.tokens userId (some kept)⟩)
  | none => (false, s)

def removeInvalidToken (s : DeviceTokenStore) (token : String) : DeviceTokenStore :=
  ⟨fun userId => (s.tokens userId).map fun entries => entries.filter fun d => d.token ≠ token⟩

end DeviceTokenStore

/-! ## In PostgreSQL -/

structure DeviceTokenRow where
  id : ℤ
  userId : ℤ
  platform : ℤ
  token : String
  createdAt : DateTime
deriving DecidableEq, Repr

def DeviceTokenRow.key (r : DeviceTokenRow) : ℤ × String := (r.userId, r.token)

structure DeviceDb where
  users : Table User.id
  deviceTokens : Table DeviceTokenRow.key

def platformToI16 : Platform → ℤ
  | .ios => 0
  | .android => 1

def platformFromI16 (value : ℤ) : Except PushError Platform :=
  if value = 0 then .ok .ios
  else if value = 1 then .ok .android
  else .error (.internal ("Unknown platform value: " ++ toString value))

def DeviceToken.tryFrom (row : DeviceTokenRow) : Except PushError DeviceToken := do
  let platform ← platformFromI16 row.platform
  pure { id := some (.ofI64 row.id), token := row.token, platform, userId := .ofI64 row.userId, deviceName := none }

/-- a text bound to a statement -/
def isText (s : String) : Bool := !s.toList.any fun c => c.toNat = 0

/-- `INSERT .. ON CONFLICT (user_id, token) DO UPDATE`; a row that is updated keeps its id and its user -/
def DeviceDb.upsertToken (s : DeviceDb) (row : DeviceTokenRow) : Except DbError DeviceDb := do
  let row := { row with token := ← varchar 512 row.token }
  let conflict := s.deviceTokens.any fun r => r.key = row.key
  requires (.duplicateKey "device_tokens_pkey") (conflict || !s.deviceTokens.any fun r => r.id = row.id)
  requires (.foreignKey "device_tokens" "device_tokens_user_id_fkey")
    (conflict || s.users.any fun u => u.id = row.userId)
  return { s with
    deviceTokens := s.deviceTokens.upsert row (fun r => { r with platform := row.platform }) fun _ => rfl }

/-- `DELETE .. WHERE` on a token: the rows affected, and the table afterwards -/
def DeviceDb.deleteTokens (s : DeviceDb) (token : String) (p : DeviceTokenRow → Bool) :
    Except DbError (ℕ × DeviceDb) := do
  requires .nulByte (isText token)
  return (s.deviceTokens.count p, { s with deviceTokens := s.deviceTokens.deleteWhere p })

namespace PgDeviceTokenStore

def mapErr {α : Type} (message : String) : Except DbError α → Except PushError α
  | .ok a => .ok a
  | .error e => .error (.internal (message ++ e.display))

def register (s : DeviceDb) (id userId : Snowflake) (platform : Platform) (token : String) (now : DateTime) :
    Except PushError DeviceDb :=
  mapErr "Failed to register device token: "
    (s.upsertToken ⟨id.toI64, userId.toI64, platformToI16 platform, token, now⟩)

def unregister (s : DeviceDb) (userId : Snowflake) (token : String) : Except PushError (Bool × DeviceDb) := do
  let (rowsAffected, s) ← mapErr "Failed to unregister device: "
    (s.deleteTokens token fun r => r.userId = userId.toI64 && r.token = token)
  pure (rowsAffected > 0, s)

def getTokens (s : DeviceDb) (userId : Snowflake) : Except PushError (List DeviceToken) :=
  ((s.deviceTokens.select fun r => r.userId = userId.toI64).insertionSort
    fun a b => b.createdAt.millis ≤ a.createdAt.millis).mapM DeviceToken.tryFrom

def removeInvalidToken (s : DeviceDb) (token : String) : Except PushError DeviceDb := do
  let (_, s) ← mapErr "Failed to remove invalid token: " (s.deleteTokens token fun r => r.token = token)
  pure s

end PgDeviceTokenStore

/-! ## Both side by side -/

inductive TokenOp where
  | register (id : Snowflake) (device : DeviceToken) (now : DateTime)
  | unregister (userId : Snowflake) (token : String)
  | removeInvalidToken (token : String)
deriving DecidableEq, Repr

/-- the answer of `unregister`, and the store afterwards -/
def memStep (s : DeviceTokenStore) : TokenOp → Option Bool × DeviceTokenStore
  | .register _ device _ => (none, s.register device)
  | .unregister userId token => (some (s.unregister userId token).1, (s.unregister userId token).2)
  | .removeInvalidToken token => (none, s.removeInvalidToken token)

/-- the same; a statement that fails leaves the table alone -/
def pgStep (s : DeviceDb) : TokenOp → Except PushError (Option Bool) × DeviceDb
  | .register id device now =>
    match PgDeviceTokenStore.register s id device.userId device.platform device.token now with
    | .ok s' => (.ok none, s')
    | .error e => (.error e, s)
  | .unregister userId token =>
    match PgDeviceTokenStore.unregister s userId token with
    | .ok (removed, s') => (.ok (some removed), s')
    | .error e => (.error e, s)
  | .removeInvalidToken token =>
    match PgDeviceTokenStore.removeInvalidToken s token with
    | .ok s' => (.ok none, s')
    | .error e => (.error e, s)

def bothStep (s : DeviceTokenStore × DeviceDb) (o : TokenOp) : DeviceTokenStore × DeviceDb :=
  ((memStep s.1 o).2, (pgStep s.2 o).2)

/-- the same pairs for every user, each token once -/
def Agree (s : DeviceTokenStore × DeviceDb) : Prop :=
  ∀ userId, ∃ tokens, PgDeviceTokenStore.getTokens s.2 userId = .ok tokens ∧
    ((s.1.getTokens userId).map DeviceToken.token).Nodup ∧ (tokens.map DeviceToken.token).Nodup ∧
      ∀ x, x ∈ (s.1.getTokens userId).map DeviceToken.pair ↔ x ∈ tokens.map DeviceToken.pair

/-- what `unregister` answers is the same -/
def SameAnswer (s : DeviceTokenStore × DeviceDb) (o : TokenOp) : Prop :=
  ∀ b, (memStep s.1 o).1 = some b → (pgStep s.2 o).1 = .ok (some b)

/-- the ids of the registrations -/
def newIds (ops : List TokenOp) : List Snowflake :=
  ops.filterMap fun
    | .register id _ _ => some id
    | _ => none

/-- a token that the table takes as it is -/
def FitsTable (users : Table User.id) (userId : ℤ) (token : String) : Prop :=
  (∃ u ∈ users.rows, u.id = userId) ∧ token.length ≤ 512 ∧ isText token = true

instance (users : Table User.id) (userId : ℤ) (token : String) : Decidable (FitsTable users userId token) :=
  inferInstanceAs (Decidable (_ ∧ _ ∧ _))

def TokenOp.Fits (users : Table User.id) : TokenOp → Prop
  | .register _ device _ => FitsTable users device.userId.toI64 device.token
  | .unregister _ token => isText token = true
  | .removeInvalidToken _ => True

instance (users : Table User.id) : (o : TokenOp) → Decidable (o.Fits users)
  | .register _ device _ => inferInstanceAs (Decidable (FitsTable users device.userId.toI64 device.token))
  | .unregister _ token => inferInstanceAs (Decidable (isText token = true))
  | .removeInvalidToken _ => isTrue trivial

/-! ## A registry -/

/-- the platform under which the user has the token -/
abbrev Registry := Snowflake → String → Option Platform

namespace Registry

def register (g : Registry) (userId : Snowflake) (token : String) (platform : Platform) : Registry :=
  fun u t => if u = userId ∧ t = token then some platform else g u t

def unregister (g : Registry) (userId : Snowflake) (token : String) : Registry :=
  fun u t => if u = userId ∧ t = token then none else g u t

def removeInvalidToken (g : Registry) (token : String) : Registry := fun u t => if t = token then none else g u t

def step (g : Registry) : TokenOp → Option Bool × Registry
  | .register _ device _ => (none, g.register device.userId device.token device.platform)
  | .unregister userId token => (some (g userId token).isSome, g.unregister userId token)
  | .removeInvalidToken token => (none, g.removeInvalidToken token)

end Registry

variable {g : Registry} {m : DeviceTokenStore} {p p' : DeviceDb} {o : TokenOp} {users : Table User.id}

/-! ## The vectors are a registry -/

structure MemRefines (m : DeviceTokenStore) (g : Registry) : Prop where
  nodup : ∀ u, ((m.getTokens u).map DeviceToken.token).Nodup
  pairs : ∀ u t platform, (t, platform) ∈ (m.getTokens u).map DeviceToken.pair ↔ g u t = some platform

theorem mem_pairs {l : List DeviceToken} {t : String} {platform : Platform} :
    (t, platform) ∈ l.map DeviceToken.pair ↔ ∃ d ∈ l, d.token = t ∧ d.platform = platform := by
  simp only [List.mem_map, DeviceToken.pair, Prod.mk.injEq]

/-- the entries that `retain` keeps -/
theorem mem_retained {l : List DeviceToken} {token t : String} {platform : Platform} :
    (t, platform) ∈ (l.filter fun d => d.token ≠ token).map DeviceToken.pair ↔
      t ≠ token ∧ (t, platform) ∈ l.map DeviceToken.pair := by
  simp only [mem_pairs, List.mem_filter, decide_eq_true_eq]
  constructor
  · rintro ⟨d, ⟨hd, hne⟩, rfl, rfl⟩
    exact ⟨hne, d, hd, rfl, rfl⟩
  · rintro ⟨hne, d, hd, rfl, rfl⟩
    exact ⟨d, ⟨hd, hne⟩, rfl, rfl⟩

theorem nodup_retained {l : List DeviceToken} (h : (l.map DeviceToken.token).Nodup) (token : String) :
    ((l.filter fun d => d.token ≠ token).map DeviceToken.token).Nodup :=
  h.sublist (List.filter_sublist.map _)

theorem getTokens_register (device : DeviceToken) (u : Snowflake) : (m.register device).getTokens u =
    if u = device.userId then ((m.getTokens u).filter fun d => d.token ≠ device.token) ++ [device]
    else m.getTokens u := by
  simp only [DeviceTokenStore.getTokens, DeviceTokenStore.register, Function.update_apply]
  split_ifs with h
  · subst h
    rfl
  · rfl

theorem getTokens_unregister (userId : Snowflake) (token : String) (u : Snowflake) :
    (m.unregister userId token).2.getTokens u =
      if u = userId then (m.getTokens u).filter fun d => d.token ≠ token else m.getTokens u := by
  rw [DeviceTokenStore.unregister]
  rcases h : m.tokens userId with _ | entries
  · split_ifs with hu
    · subst hu
      simp [DeviceTokenStore.getTokens, h]
    · rfl
  · simp only [DeviceTokenStore.getTokens, Function.update_apply]
    split_ifs with hu
    · subst hu
      simp [h]
    · rfl

theorem getTokens_removeInvalidToken (token : String) (u : Snowflake) :
    (m.removeInvalidToken token).getTokens u = (m.getTokens u).filter fun d => d.token ≠ token := by
  simp only [DeviceTokenStore.getTokens, DeviceTokenStore.removeInvalidToken]
  rcases m.tokens u with _ | entries <;> rfl

theorem unregister_fst (h : MemRefines m g) (userId : Snowflake) (token : String) :
    (m.unregister userId token).1 = (g userId token).isSome := by
  have hkept : (m.unregister userId token).1 =
      decide (((m.getTokens userId).filter fun d => d.token ≠ token).length < (m.getTokens userId).length) := by
    rw [DeviceTokenStore.unregister, DeviceTokenStore.getTokens]
    rcases m.tokens userId with _ | entries <;> rfl
  rw [hkept, Bool.eq_iff_iff, decide_eq_true_iff, List.length_filter_lt_length_iff_exists, Option.isSome_iff_exists]
  constructor
  · rintro ⟨d, hd, htoken⟩
    have hsame : d.token = token := by simpa using htoken
    exact ⟨d.platform, (h.pairs userId token d.platform).1 (mem_pairs.2 ⟨d, hd, hsame, rfl⟩)⟩
  · rintro ⟨platform, hplatform⟩
    obtain ⟨d, hd, htoken, -⟩ := mem_pairs.1 ((h.pairs userId token platform).2 hplatform)
    exact ⟨d, hd, by simpa using htoken⟩

theorem memStep_refines (h : MemRefines m g) (o : TokenOp) :
    (memStep m o).1 = (g.step o).1 ∧ MemRefines (memStep m o).2 (g.step o).2 := by
  cases o with
  | register id device now =>
    refine ⟨rfl, fun u => ?_, fun u t platform => ?_⟩
    · rw [memStep, getTokens_register]
      split_ifs
      · rw [List.map_append, List.nodup_append]
        refine ⟨nodup_retained (h.nodup u) _, List.nodup_singleton _, ?_⟩
        rintro x hx y hy rfl
        obtain ⟨d, hd, rfl⟩ := List.mem_map.1 hx
        exact (of_decide_eq_true (List.mem_filter.1 hd).2) (List.mem_singleton.1 hy)
      · exact h.nodup u
    · simp only [memStep, getTokens_register, Registry.step, Registry.register]
      by_cases hu : u = device.userId
      · rw [if_pos hu, List.map_append, List.mem_append, mem_retained, h.pairs]
        by_cases ht : t = device.token
        · simp [hu, ht, DeviceToken.pair, eq_comm]
        · simp [hu, ht, DeviceToken.pair]
      · rw [if_neg hu, if_neg fun hand => hu hand.1]
        exact h.pairs u t platform
  | unregister userId token =>
    refine ⟨congrArg some (unregister_fst h userId token), fun u => ?_, fun u t platform => ?_⟩
    · rw [memStep, getTokens_unregister]
      split_ifs
      · exact nodup_retained (h.nodup u) _
      · exact h.nodup u
    · simp only [memStep, getTokens_unregister, Registry.step, Registry.unregister]
      by_cases hu : u = userId
      · rw [if_pos hu, mem_retained, h.pairs]
        by_cases ht : t = token <;> simp [hu, ht]
      · rw [if_neg hu, if_neg fun hand => hu hand.1]
        exact h.pairs u t platform
  | removeInvalidToken token =>
    refine ⟨rfl, fun u => ?_, fun u t platform => ?_⟩
    · rw [memStep, getTokens_removeInvalidToken]
      exact nodup_retained (h.nodup u) _
    · simp only [memStep, getTokens_removeInvalidToken, Registry.step, Registry.removeInvalidToken]
      rw [mem_retained, h.pairs]
      by_cases ht : t = token <;> simp [ht]

/-! ## The table is a registry -/

theorem varchar_of_fits {token : String} (hlength : token.length ≤ 512) (htext : isText token = true) :
    varchar 512 token = .ok token := by
  rw [isText, Bool.not_eq_true', Bool.eq_false_iff] at htext
  rw [varchar, if_neg htext, if_pos hlength]

/-- what is stored fits, cut or not -/
theorem fits_of_varchar {token stored : String} (h : varchar 512 token = .ok stored) :
    stored.length ≤ 512 ∧ isText stored = true := by
  rw [varchar] at h
  split_ifs at h with hnul hlength hblank
  · obtain rfl := Except.ok.inj h
    refine ⟨hlength, ?_⟩
    rw [isText, Bool.eq_false_iff.2 hnul]
    rfl
  · obtain rfl := Except.ok.inj h
    refine ⟨?_, ?_⟩
    · rw [String.length_ofList]
      exact List.length_take_le _ _
    · rw [isText, Bool.not_eq_true', List.any_eq_false]
      rintro c hc
      rw [String.toList_ofList] at hc
      exact fun h0 => hnul (List.any_eq_true.2 ⟨c, List.mem_of_mem_take hc, h0⟩)

/-- the rows are within the bounds of the table -/
structure TableOk (users : Table User.id) (p : DeviceDb) : Prop where
  accounts : p.users = users
  rows : ∀ r ∈ p.deviceTokens, FitsTable users r.userId r.token

/-- the table with the row, or with its platform in the row that is there -/
def DeviceDb.put (p : DeviceDb) (row : DeviceTokenRow) : DeviceDb :=
  { p with deviceTokens := p.deviceTokens.upsert row (fun r => { r with platform := row.platform }) fun _ => rfl }

theorem upsertToken_eq_ok {row : DeviceTokenRow} (h : p.upsertToken row = .ok p') :
    ∃ token, varchar 512 row.token = .ok token ∧
      ((∃ r ∈ p.deviceTokens, r.key = (row.userId, token)) ∨ ∃ u ∈ p.users, u.id = row.userId) ∧
      p' = p.put { row with token } := by
  simp only [DeviceDb.upsertToken, bind_eq_ok, pure_eq_ok, requires_eq_ok, Bool.or_eq_true, Table.any_eq_true,
    decide_eq_true_eq] at h
  obtain ⟨token, hvarchar, _, -, _, huser, rfl⟩ := h
  exact ⟨token, hvarchar, huser, rfl⟩

theorem deleteTokens_eq_ok {token : String} {q : DeviceTokenRow → Bool} {r : ℕ × DeviceDb} :
    p.deleteTokens token q = .ok r ↔ isText token = true ∧
      r = (p.deviceTokens.count q, { p with deviceTokens := p.deviceTokens.deleteWhere q }) := by
  simp only [DeviceDb.deleteTokens, bind_eq_ok, pure_eq_ok, requires_eq_ok]
  exact ⟨fun ⟨_, htext, h⟩ => ⟨htext, h.symm⟩, fun ⟨htext, h⟩ => ⟨(), htext, h.symm⟩⟩

theorem mapErr_eq_ok {α : Type} {message : String} {x : Except DbError α} {a : α} :
    PgDeviceTokenStore.mapErr message x = .ok a ↔ x = .ok a := by
  cases x <;> simp [PgDeviceTokenStore.mapErr]

def DeviceDb.without (p : DeviceDb) (q : DeviceTokenRow → Bool) : DeviceDb :=
  { p with deviceTokens := p.deviceTokens.deleteWhere q }

theorem removeInvalidToken_eq_ok {token : String} (h : PgDeviceTokenStore.removeInvalidToken p token = .ok p') :
    p' = p.without fun r => r.token = token := by
  obtain ⟨⟨n, p₁⟩, hrun, hret⟩ := bind_eq_ok.1 h
  obtain ⟨-, hsame⟩ := deleteTokens_eq_ok.1 (mapErr_eq_ok.1 hrun)
  obtain ⟨-, rfl⟩ := Prod.mk.inj hsame
  exact (Except.ok.inj hret).symm

/-- what an operation makes of the table -/
theorem pgStep_cases (p : DeviceDb) (o : TokenOp) :
    (pgStep p o).2 = p ∨ (∃ q, (pgStep p o).2 = p.without q) ∨
      ∃ id device now token, o = .register id device now ∧ varchar 512 device.token = .ok token ∧
        ((∃ r ∈ p.deviceTokens, r.key = (device.userId.toI64, token)) ∨ ∃ u ∈ p.users, u.id = device.userId.toI64) ∧
        (pgStep p o).2 = p.put ⟨id.toI64, device.userId.toI64, platformToI16 device.platform, token, now⟩ := by
  cases o with
  | register id device now =>
    rw [pgStep]
    rcases h : PgDeviceTokenStore.register p id device.userId device.platform device.token now with e | p'
    · exact .inl rfl
    · obtain ⟨token, hvarchar, huser, rfl⟩ := upsertToken_eq_ok (mapErr_eq_ok.1 h)
      exact .inr (.inr ⟨id, device, now, token, rfl, hvarchar, huser, rfl⟩)
  | unregister userId token =>
    rw [pgStep]
    rcases h : PgDeviceTokenStore.unregister p userId token with e | ⟨removed, p'⟩
    · exact .inl rfl
    · obtain ⟨⟨n, p₁⟩, hrun, hret⟩ := bind_eq_ok.1 h
      obtain ⟨-, hsame⟩ := deleteTokens_eq_ok.1 (mapErr_eq_ok.1 hrun)
      obtain ⟨-, rfl⟩ := Prod.mk.inj hsame
      obtain ⟨-, rfl⟩ := Prod.mk.inj (Except.ok.inj hret)
      exact .inr (.inl ⟨_, rfl⟩)
  | removeInvalidToken token =>
    rw [pgStep]
    rcases h : PgDeviceTokenStore.removeInvalidToken p token with e | p'
    · exact .inl rfl
    · exact .inr (.inl ⟨_, removeInvalidToken_eq_ok h⟩)

theorem pgStep_ok (h : TableOk users p) (o : TokenOp) : TableOk users (pgStep p o).2 := by
  rcases pgStep_cases p o with hsame | ⟨q, hsame⟩ | ⟨id, device, now, token, -, hvarchar, huser, hsame⟩
  · rwa [hsame]
  · rw [hsame]
    exact ⟨h.accounts, fun r hr => h.rows r (Table.mem_deleteWhere.1 hr).1⟩
  · rw [hsame]
    refine ⟨h.accounts, fun r hr => ?_⟩
    rcases Table.mem_upsert hr with hold | rfl | ⟨old, hold, rfl⟩
    · exact h.rows r hold
    · refine ⟨?_, fits_of_varchar hvarchar⟩
      rcases huser with ⟨old, hold, hkey⟩ | ⟨u, hu, hid⟩
      · rw [← (Prod.mk.inj hkey).1]
        exact (h.rows old hold).1
      · rw [h.accounts] at hu
        exact ⟨u, hu, hid⟩
    · exact h.rows old hold

def PgRefines (p : DeviceDb) (g : Registry) : Prop :=
  ∀ u t, (p.deviceTokens.find? fun r => r.key = (u.toI64, t)).map DeviceTokenRow.platform = (g u t).map platformToI16

theorem toI64_inj {u u' : Snowflake} (h : u.toI64 = u'.toI64) : u = u' := by
  rw [← Snowflake.ofI64_toI64 u, h, Snowflake.ofI64_toI64]

theorem key_eq_iff {userId u : Snowflake} {token t : String} :
    (userId.toI64, token) = (u.toI64, t) ↔ u = userId ∧ t = token := by
  rw [Prod.mk.injEq]
  exact ⟨fun h => ⟨(toI64_inj h.1).symm, h.2.symm⟩, fun h => ⟨h.1 ▸ rfl, h.2.symm⟩⟩

theorem PgRefines.put (h : PgRefines p g) {row : DeviceTokenRow} {userId : Snowflake} {token : String}
    {platform : Platform} (hkey : row.key = (userId.toI64, token)) (hplatform : row.platform = platformToI16 platform) :
    PgRefines (p.put row) (g.register userId token platform) := by
  intro u t
  have hkeep : ∀ r : DeviceTokenRow, ({ r with platform := row.platform } : DeviceTokenRow).key = r.key := fun _ => rfl
  have hrow := Table.find?_upsert (t := p.deviceTokens) (a := row) hkeep (u.toI64, t)
  refine (congrArg (Option.map DeviceTokenRow.platform) hrow).trans ?_
  rw [hkey]
  by_cases hsame : u = userId ∧ t = token
  · rw [if_pos (key_eq_iff.2 hsame), Registry.register, if_pos hsame, Option.map_some, Option.map_some, ← hplatform]
    rcases p.deviceTokens.find? _ with _ | r <;> rfl
  · rw [if_neg fun hsame' => hsame (key_eq_iff.1 hsame'), Registry.register, if_neg hsame]
    exact h u t

theorem PgRefines.delete (h : PgRefines p g) {q : DeviceTokenRow → Bool} (gone : Snowflake → String → Prop)
    [∀ u t, Decidable (gone u t)]
    (hq : ∀ (r : DeviceTokenRow) u t, r.key = (u.toI64, t) → (q r = true ↔ gone u t)) :
    PgRefines { p with deviceTokens := p.deviceTokens.deleteWhere q } fun u t => if gone u t then none else g u t := by
  intro u t
  dsimp only
  rw [Table.find?_deleteWhere]
  have hrow := h u t
  rcases hfind : p.deviceTokens.find? (fun r => r.key = (u.toI64, t)) with _ | r
  · rw [hfind] at hrow
    split_ifs
    · rfl
    · exact hrow
  · have hgone := hq r u t (Table.find?_key.1 hfind).2
    rw [hfind] at hrow
    split_ifs with hyes
    · rw [Option.filter_some, hgone.2 hyes]
      rfl
    · rw [Option.filter_some, Bool.eq_false_iff.2 fun hyes' => hyes (hgone.1 hyes')]
      exact hrow

/-- no row has the id of the registration -/
def FreshId (p : DeviceDb) : TokenOp → Prop
  | .register id _ _ => ∀ r ∈ p.deviceTokens, r.id ≠ id.toI64
  | _ => True

theorem register_of_fits {id : Snowflake} {device : DeviceToken} {now : DateTime} (hok : TableOk users p)
    (hfits : FitsTable users device.userId.toI64 device.token) (hfresh : ∀ r ∈ p.deviceTokens, r.id ≠ id.toI64) :
    PgDeviceTokenStore.register p id device.userId device.platform device.token now =
      .ok (p.put ⟨id.toI64, device.userId.toI64, platformToI16 device.platform, device.token, now⟩) := by
  obtain ⟨⟨u, hu, hid⟩, hlength, htext⟩ := hfits
  have huser : (p.users.any fun u => u.id = device.userId.toI64) = true := by
    rw [hok.accounts]
    exact Table.any_eq_true.2 ⟨u, hu, decide_eq_true hid⟩
  have hnew : (p.deviceTokens.any fun r => r.id = id.toI64) = false :=
    Table.any_eq_false.2 fun r hr => decide_eq_false (hfresh r hr)
  rw [PgDeviceTokenStore.register, mapErr_eq_ok, DeviceDb.upsertToken]
  simp only [bind_eq_ok, pure_eq_ok, requires_eq_ok, Bool.or_eq_true, huser, hnew]
  exact ⟨device.token, varchar_of_fits hlength htext, (), .inr rfl, (), .inr trivial, rfl⟩

/-- a row with the key is there exactly if the registry has the token -/
theorem count_row (h : PgRefines p g) (userId : Snowflake) (token : String) :
    decide (p.deviceTokens.count (fun r => r.userId = userId.toI64 && r.token = token) > 0) =
      (g userId token).isSome := by
  have hrow := congrArg Option.isSome (h userId token)
  rw [Option.isSome_map, Option.isSome_map] at hrow
  rw [← hrow, Bool.eq_iff_iff, decide_eq_true_iff, Table.count, gt_iff_lt, List.countP_pos_iff,
    Option.isSome_iff_exists]
  refine exists_congr fun r => ?_
  rw [Table.find?_key, Bool.and_eq_true, decide_eq_true_eq, decide_eq_true_eq, DeviceTokenRow.key, Prod.mk.injEq]
  exact Iff.rfl

/-- a token that is no text is nobody's -/
theorem PgRefines.eq_none (hok : TableOk users p) (h : PgRefines p g) {token : String} (htext : ¬ isText token = true)
    (u : Snowflake) : g u token = none := by
  have hrow := h u token
  rcases hfind : p.deviceTokens.find? (fun r => r.key = (u.toI64, token)) with _ | r
  · rw [hfind] at hrow
    exact Option.map_eq_none_iff.1 hrow.symm
  · obtain ⟨hr, hkey⟩ := Table.find?_key.1 hfind
    have hfits := (hok.rows r hr).2.2
    rw [show r.token = token from (Prod.mk.inj hkey).2] at hfits
    exact absurd hfits htext

theorem pgStep_refines (hok : TableOk users p) (h : PgRefines p g) (hfits : o.Fits users) (hfresh : FreshId p o) :
    (∀ b, (g.step o).1 = some b → (pgStep p o).1 = .ok (some b)) ∧ PgRefines (pgStep p o).2 (g.step o).2 := by
  cases o with
  | register id device now =>
    rw [pgStep, register_of_fits hok hfits hfresh]
    exact ⟨fun _ hb => (nomatch hb), h.put rfl rfl⟩
  | unregister userId token =>
    have hdel : PgDeviceTokenStore.unregister p userId token = .ok ((g userId token).isSome, { p with
        deviceTokens := p.deviceTokens.deleteWhere fun r => r.userId = userId.toI64 && r.token = token }) :=
      bind_eq_ok.2 ⟨_, mapErr_eq_ok.2 (deleteTokens_eq_ok.2 ⟨hfits, rfl⟩),
        congrArg Except.ok (Prod.ext (count_row h userId token) rfl)⟩
    rw [pgStep, hdel]
    refine ⟨fun b hb => congrArg Except.ok hb, h.delete (fun u t => u = userId ∧ t = token) fun r u t hkey => ?_⟩
    rw [Bool.and_eq_true, decide_eq_true_eq, decide_eq_true_eq, ← key_eq_iff, ← hkey, DeviceTokenRow.key, Prod.mk.injEq]
    exact and_congr eq_comm eq_comm
  | removeInvalidToken token =>
    refine ⟨fun _ hb => (nomatch hb), ?_⟩
    rw [pgStep]
    by_cases htext : isText token = true
    · have hdel : PgDeviceTokenStore.removeInvalidToken p token = .ok { p with
          deviceTokens := p.deviceTokens.deleteWhere fun r => r.token = token } :=
        bind_eq_ok.2 ⟨_, mapErr_eq_ok.2 (deleteTokens_eq_ok.2 ⟨htext, rfl⟩), rfl⟩
      rw [hdel]
      refine h.delete (fun _ t => t = token) fun r u t hkey => ?_
      rw [decide_eq_true_eq, ← (Prod.mk.inj hkey).2]
    · rcases hdel : PgDeviceTokenStore.removeInvalidToken p token with e | p'
      · intro u t
        rw [h u t]
        simp only [Registry.step, Registry.removeInvalidToken]
        split_ifs with ht
        · rw [ht, h.eq_none hok htext]
        · rfl
      · obtain ⟨_, hrun, -⟩ := bind_eq_ok.1 hdel
        exact absurd (deleteTokens_eq_ok.1 (mapErr_eq_ok.1 hrun)).1 htext

/-! ## What is read -/

/-- the rows of a user in the order of `get_tokens` -/
def rowsOf (p : DeviceDb) (userId : Snowflake) : List DeviceTokenRow :=
  (p.deviceTokens.select fun r => r.userId = userId.toI64).insertionSort
    fun a b => b.createdAt.millis ≤ a.createdAt.millis

theorem perm_rowsOf (p : DeviceDb) (u : Snowflake) :
    (rowsOf p u).Perm (p.deviceTokens.select fun r => r.userId = u.toI64) := List.perm_insertionSort _ _

theorem mem_rowsOf {u : Snowflake} {r : DeviceTokenRow} : r ∈ rowsOf p u ↔ r ∈ p.deviceTokens ∧ r.userId = u.toI64 := by
  rw [(perm_rowsOf p u).mem_iff, Table.mem_select, decide_eq_true_eq]

theorem nodup_rowsOf (u : Snowflake) : ((rowsOf p u).map DeviceTokenRow.token).Nodup := by
  refine ((perm_rowsOf p u).map _).nodup_iff.2 (Table.nodup_map_select (fun t => (u.toI64, t)) fun r _ hr => ?_)
  rw [← of_decide_eq_true hr]
  rfl

theorem platformToI16_inj {x y : Platform} : platformToI16 x = platformToI16 y ↔ x = y := by
  cases x <;> cases y <;> simp [platformToI16]

/-- the token is that of the row, under the platform that the row says -/
def Reads (r : DeviceTokenRow) (d : DeviceToken) : Prop := d.token = r.token ∧ r.platform = platformToI16 d.platform

theorem platformFromI16_eq_ok {value : ℤ} {platform : Platform} :
    platformFromI16 value = .ok platform ↔ value = platformToI16 platform := by
  rw [platformFromI16]
  split_ifs <;> cases platform <;> simp_all [platformToI16]

theorem reads_of_tryFrom {r : DeviceTokenRow} {d : DeviceToken} (h : DeviceToken.tryFrom r = .ok d) : Reads r d := by
  obtain ⟨platform, hplatform, hd⟩ := bind_eq_ok.1 h
  obtain rfl := Except.ok.inj hd
  exact ⟨rfl, platformFromI16_eq_ok.1 hplatform⟩

theorem tryFrom_of_platform {r : DeviceTokenRow} {platform : Platform} (h : r.platform = platformToI16 platform) :
    ∃ d, DeviceToken.tryFrom r = .ok d :=
  ⟨_, bind_eq_ok.2 ⟨platform, platformFromI16_eq_ok.2 h, rfl⟩⟩

/-- `collect` into a `Result`: all rows are read, or none -/
theorem mapM_reads {rows : List DeviceTokenRow} {tokens : List DeviceToken}
    (h : rows.mapM DeviceToken.tryFrom = .ok tokens) : List.Forall₂ Reads rows tokens := by
  induction rows generalizing tokens with
  | nil =>
    obtain rfl := Except.ok.inj h
    exact .nil
  | cons r rows ih =>
    rw [List.mapM_cons] at h
    obtain ⟨d, hd, h⟩ := bind_eq_ok.1 h
    obtain ⟨ds, hds, h⟩ := bind_eq_ok.1 h
    obtain rfl := Except.ok.inj h
    exact .cons (reads_of_tryFrom hd) (ih hds)

theorem exists_mapM {rows : List DeviceTokenRow} (h : ∀ r ∈ rows, ∃ platform, r.platform = platformToI16 platform) :
    ∃ tokens, rows.mapM DeviceToken.tryFrom = .ok tokens := by
  induction rows with
  | nil => exact ⟨[], rfl⟩
  | cons r rows ih =>
    obtain ⟨platform, hplatform⟩ := h r List.mem_cons_self
    obtain ⟨d, hd⟩ := tryFrom_of_platform hplatform
    obtain ⟨ds, hds⟩ := ih fun r' hr' => h r' (List.mem_cons_of_mem r hr')
    exact ⟨d :: ds, by rw [List.mapM_cons, hd, hds]; rfl⟩

theorem map_token_of_reads {rows : List DeviceTokenRow} {tokens : List DeviceToken}
    (h : List.Forall₂ Reads rows tokens) : tokens.map DeviceToken.token = rows.map DeviceTokenRow.token := by
  induction h with
  | nil => rfl
  | cons hd _ ih => rw [List.map_cons, List.map_cons, ih, hd.1]

theorem mem_pairs_of_reads {rows : List DeviceTokenRow} {tokens : List DeviceToken}
    (h : List.Forall₂ Reads rows tokens) {t : String} {platform : Platform} :
    (t, platform) ∈ tokens.map DeviceToken.pair ↔ ∃ r ∈ rows, r.token = t ∧ r.platform = platformToI16 platform := by
  induction h with
  | nil => simp
  | @cons r d rows tokens hd _ ih =>
    have hhead : (t, platform) = d.pair ↔ r.token = t ∧ r.platform = platformToI16 platform := by
      rw [DeviceToken.pair, Prod.mk.injEq, hd.1, hd.2, platformToI16_inj]
      exact and_congr eq_comm eq_comm
    rw [List.map_cons, List.mem_cons, hhead, ih]
    simp only [List.mem_cons, exists_eq_or_imp]

/-- a row of the user is in the registry -/
theorem PgRefines.row (h : PgRefines p g) {u : Snowflake} {r : DeviceTokenRow} (hr : r ∈ rowsOf p u) :
    (g u r.token).map platformToI16 = some r.platform := by
  obtain ⟨hmem, huser⟩ := mem_rowsOf.1 hr
  have hkey : r.key = (u.toI64, r.token) := Prod.ext huser rfl
  rw [← h u r.token, Table.find?_key.2 ⟨hmem, hkey⟩]
  rfl

theorem PgRefines.row_iff (h : PgRefines p g) {u : Snowflake} {t : String} {x : Platform} :
    (∃ r ∈ rowsOf p u, r.token = t ∧ r.platform = platformToI16 x) ↔ g u t = some x := by
  constructor
  · rintro ⟨r, hr, rfl, hplatform⟩
    obtain ⟨y, hy, hsame⟩ := Option.map_eq_some_iff.1 (h.row hr)
    rw [hy, platformToI16_inj.1 (hsame.trans hplatform)]
  · intro hx
    have hkey := h u t
    rw [hx] at hkey
    obtain ⟨r, hfind, hplatform⟩ := Option.map_eq_some_iff.1 hkey
    obtain ⟨hmem, hkeyr⟩ := Table.find?_key.1 hfind
    obtain ⟨huser, htoken⟩ := Prod.mk.inj hkeyr
    exact ⟨r, mem_rowsOf.2 ⟨hmem, huser⟩, htoken, hplatform⟩

/-- **What both stores read when they are one registry.** -/
theorem agree_of_refines (hm : MemRefines m g) (hp : PgRefines p g) : Agree (m, p) := by
  intro u
  obtain ⟨tokens, htokens⟩ : ∃ tokens, (rowsOf p u).mapM DeviceToken.tryFrom = .ok tokens := by
    refine exists_mapM fun r hr => ?_
    obtain ⟨x, -, hx⟩ := Option.map_eq_some_iff.1 (hp.row hr)
    exact ⟨x, hx.symm⟩
  have hreads := mapM_reads htokens
  refine ⟨tokens, htokens, hm.nodup u, ?_, fun ⟨t, x⟩ => ?_⟩
  · rw [map_token_of_reads hreads]
    exact nodup_rowsOf u
  · rw [hm.pairs, mem_pairs_of_reads hreads]
    exact hp.row_iff.symm

/-! ## All along a run -/

theorem mem_newIds_cons {id : Snowflake} {ops : List TokenOp} (h : id ∈ newIds ops) : id ∈ newIds (o :: ops) := by
  cases o with
  | register => exact List.mem_cons_of_mem _ h
  | _ => exact h

/-- where the id of a row comes from -/
theorem id_of_pgStep {r : DeviceTokenRow} (hr : r ∈ (pgStep p o).2.deviceTokens) :
    (∃ r' ∈ p.deviceTokens, r'.id = r.id) ∨ ∃ id device now, o = .register id device now ∧ r.id = id.toI64 := by
  rcases pgStep_cases p o with hsame | ⟨q, hsame⟩ | ⟨id, device, now, token, ho, -, -, hsame⟩
  · rw [hsame] at hr
    exact .inl ⟨r, hr, rfl⟩
  · rw [hsame] at hr
    exact .inl ⟨r, (Table.mem_deleteWhere.1 hr).1, rfl⟩
  · rw [hsame] at hr
    rcases Table.mem_upsert hr with hold | rfl | ⟨old, hold, rfl⟩
    · exact .inl ⟨r, hold, rfl⟩
    · exact .inr ⟨id, device, now, ho, rfl⟩
    · exact .inl ⟨old, hold, rfl⟩

theorem every_fresh {ops : List TokenOp} (hnodup : (newIds ops).Nodup)
    (hfresh : ∀ id ∈ newIds ops, ∀ r ∈ p.deviceTokens, r.id ≠ id.toI64) (m : DeviceTokenStore) :
    Every bothStep (fun s o => FreshId s.2 o) (m, p) ops := by
  induction ops generalizing p m with
  | nil => trivial
  | cons o ops ih =>
    refine ⟨?_, ih ?_ (fun id hid r hr => ?_) _⟩
    · cases o with
      | register id device now => exact hfresh id List.mem_cons_self
      | _ => trivial
    · cases o with
      | register id device now => exact hnodup.of_cons
      | _ => exact hnodup
    · rcases id_of_pgStep hr with ⟨r', hr', hsame⟩ | ⟨id', device, now, rfl, hsame⟩
      · rw [← hsame]
        exact hfresh id (mem_newIds_cons hid) r' hr'
      · rw [hsame]
        rintro heq
        obtain rfl := toI64_inj heq
        exact (List.nodup_cons.1 hnodup).1 hid

/-- a registration that the table refuses or cuts is missed at once -/
theorem fits_of_agree {s : DeviceTokenStore × DeviceDb} (hok : TableOk users (pgStep s.2 o).2)
    (hanswer : SameAnswer s o) (hagree : Agree (bothStep s o)) : o.Fits users := by
  cases o with
  | register id device now =>
    obtain ⟨tokens, htokens, -, -, hpairs⟩ := hagree device.userId
    have hmem : device.pair ∈
        ((bothStep s (.register id device now)).1.getTokens device.userId).map DeviceToken.pair := by
      rw [bothStep, memStep, getTokens_register, if_pos rfl, List.map_append]
      exact List.mem_append_right _ List.mem_cons_self
    obtain ⟨r, hr, htoken, -⟩ := (mem_pairs_of_reads (mapM_reads htokens)).1 ((hpairs _).1 hmem)
    obtain ⟨hrow, huser⟩ := mem_rowsOf.1 hr
    have hfits := hok.rows r hrow
    rwa [huser, htoken] at hfits
  | unregister userId token =>
    have hanswer := hanswer _ rfl
    rw [pgStep] at hanswer
    rcases hdel : PgDeviceTokenStore.unregister s.2 userId token with e | ⟨removed, p'⟩
    · rw [hdel] at hanswer
      cases hanswer
    · obtain ⟨_, hrun, -⟩ := bind_eq_ok.1 hdel
      exact (deleteTokens_eq_ok.1 (mapErr_eq_ok.1 hrun)).1
  | removeInvalidToken token => trivial

/-- **The stores are interchangeable exactly as long as the tokens fit the table.** -/
theorem interchangeable_iff (users : Table User.id) (ops : List TokenOp) (hfresh : (newIds ops).Nodup) :
    (Every bothStep SameAnswer (.new, ⟨users, .empty⟩) ops ∧
      ∀ l, l <+: ops → Agree (run bothStep (.new, ⟨users, .empty⟩) l)) ↔ ∀ o ∈ ops, o.Fits users := by
  have hstart : TableOk users ⟨users, .empty⟩ := ⟨rfl, fun _ hr => absurd hr Table.not_mem_empty⟩
  constructor
  · rintro ⟨hanswers, hagree⟩ o ho
    obtain ⟨l, l', rfl⟩ := List.append_of_mem ho
    have hok : TableOk users (run bothStep (.new, ⟨users, .empty⟩) l).2 :=
      run_inv (I := fun s : DeviceTokenStore × DeviceDb => TableOk users s.2) (fun _ o h => pgStep_ok h o) hstart l
    refine fits_of_agree (pgStep_ok hok o) ((every_append _ _ _).1 hanswers).2.1 ?_
    have hlast := hagree (l ++ [o]) ⟨l', by rw [List.append_assoc]; rfl⟩
    rwa [run_snoc] at hlast
  · intro hfits
    -- the registry that both stores are
    let Inv : DeviceTokenStore × DeviceDb → Prop :=
      fun s => TableOk users s.2 ∧ ∃ g, MemRefines s.1 g ∧ PgRefines s.2 g
    have hinv : Inv (.new, ⟨users, .empty⟩) :=
      ⟨hstart, fun _ _ => none, ⟨fun _ => List.nodup_nil, fun _ _ _ => by simp [DeviceTokenStore.getTokens,
        DeviceTokenStore.new]⟩, fun _ _ => rfl⟩
    have hstep : ∀ (s : DeviceTokenStore × DeviceDb) (o : TokenOp), o.Fits users ∧ FreshId s.2 o → Inv s →
        Inv (bothStep s o) ∧ SameAnswer s o := by
      rintro s o ⟨ho, hnew⟩ ⟨hok, g, hm, hp⟩
      obtain ⟨hanswer, hm'⟩ := memStep_refines hm o
      obtain ⟨hanswer', hp'⟩ := pgStep_refines hok hp ho hnew
      exact ⟨⟨pgStep_ok hok o, _, hm', hp'⟩, fun b hb => hanswer' b (hanswer ▸ hb)⟩
    have hevery : Every bothStep (fun s o => o.Fits users ∧ FreshId s.2 o) (.new, ⟨users, .empty⟩) ops :=
      (every_of_forall hfits).and (every_fresh hfresh (fun _ _ _ hr => absurd hr Table.not_mem_empty) _)
    refine ⟨(hevery.with_inv (fun s o h hs => (hstep s o h hs).1) hinv).mono fun s o h => (hstep s o h.1 h.2).2,
      fun l hl => ?_⟩
    obtain ⟨-, g, hm, hp⟩ := run_inv_of_every (fun s o h hs => (hstep s o h hs).1) hinv (hevery.of_prefix hl)
    exact agree_of_refines hm hp

def phone (userId : ℤ) (token : String) (platform : Platform) : DeviceToken :=
  ⟨none, token, platform, .ofI64 userId, none⟩

def oneUser : Table User.id :=
  ⟨[⟨7, "ada", 1, "hash", none, none, none, 0, false, none⟩], by decide⟩

/-- a registration for user 8, who has no account -/
def strange : DeviceTokenStore × DeviceDb :=
  run bothStep (.new, ⟨oneUser, .empty⟩) [.register ⟨1⟩ (phone 8 "token" .ios) ⟨0⟩]

/-- **The table refuses the token of a user without an account, the vectors keep it.** -/
theorem unknown_user :
    strange.1.getTokens (.ofI64 8) = [phone 8 "token" .ios] ∧
      PgDeviceTokenStore.getTokens strange.2 (.ofI64 8) = .ok [] ∧ ¬ Agree strange := by
  have hmem : strange.1.getTokens (.ofI64 8) = [phone 8 "token" .ios] := rfl
  have hpg : PgDeviceTokenStore.getTokens strange.2 (.ofI64 8) = .ok [] := by decide
  refine ⟨hmem, hpg, fun h => ?_⟩
  obtain ⟨tokens, htokens, -, -, hpairs⟩ := h (.ofI64 8)
  obtain rfl := Except.ok.inj (hpg.symm.trans htokens)
  have hnone := (hpairs ("token", .ios)).1 (by rw [hmem]; exact List.mem_cons_self)
  exact List.not_mem_nil hnone

/-- a token that changes its platform and is unregistered -/
def renewed : List TokenOp :=
  [.register ⟨1⟩ (phone 7 "token" .ios) ⟨0⟩, .register ⟨2⟩ (phone 7 "token" .android) ⟨1⟩,
   .unregister (.ofI64 7) "token"]

theorem interchangeable_renewed : Agree (run bothStep (.new, ⟨oneUser, .empty⟩) renewed) :=
  ((interchangeable_iff oneUser renewed (by decide)).2 (by decide)).2 renewed List.prefix_rfl

end Lumiere.Push
