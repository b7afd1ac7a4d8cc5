/-
Registration of push tokens (`lumiere-server/src/routes/devices.rs`): a user's rows are counted, an id is drawn, the
row is inserted or, if the user has the token, updated in place. The answer carries the drawn id and the masked token.

An update keeps the id of the row, so the answer to a repeated registration names a row that does not exist; and the
count comes first, so a user with ten rows cannot register any of them again. The mask cuts the text at byte positions
and panics where a character lies across one.

- `Again`, `IdUsable`: a repeated registration succeeds, and the id of an answer is that of the row.
- `registration_iff`: both hold exactly for a token that the user does not have. The limit holds in every run.
- `Cuttable`: the texts that the mask can cut. `masking_iff`: exactly these are registered with an answer, and a list
  fails as long as one other is in it.
- `stale_id`, `split_character`: where it goes wrong.
-/
import Lumiere.Models.Error
import Lumiere.Push.TokenStores

namespace Lumiere.Push

open Lumiere.Core Lumiere.Models Lumiere.Db

def Platform.debug : Platform → String
  | .ios => "Ios"
  | .android => "Android"

def PushError.display : PushError → String
  | .tokenNotFound userId => "device token not found for user " ++ toString userId.value
  | .apnsError message => "APNs delivery failed: " ++ message
  | .fcmError message => "FCM delivery failed: " ++ message
  | .invalidToken message => "invalid device token: " ++ message
  | .platformNotConfigured platform => "push service not configured for platform " ++ platform.debug
  | .internal message => message

/-- `DELETE .. WHERE id = $1 AND user_id = $2` -/
def PgDeviceTokenStore.unregisterById (s : DeviceDb) (userId deviceId : Snowflake) :
    Except PushError (Bool × DeviceDb) :=
  let p := fun r : DeviceTokenRow => decide (r.id = deviceId.toI64) && decide (r.userId = userId.toI64)
  .ok (s.deviceTokens.count p > 0, s.without p)

end Lumiere.Push

namespace Lumiere.Routes

open Lumiere.Core Lumiere.Models Lumiere.Db Lumiere.Push

structure RegisterDeviceRequest where
  token : String
  platform : Platform
deriving DecidableEq, Repr

def RegisterDeviceRequest.validate (body : RegisterDeviceRequest) : List FieldError :=
  lengthErrors "token" 1 512 body.token

structure DeviceResponse where
  id : Snowflake
  token : String
  platform : Platform
deriving DecidableEq, Repr

/-- `None` where a slice is not at a character boundary and panics -/
def maskToken (token : String) : Option String :=
  if 8 < token.utf8ByteSize then do
    let (first, _) ← Str.splitAtByte 4 token
    let (_, last) ← Str.splitAtByte (token.utf8ByteSize - 4) token
    pure (first ++ "..." ++ last)
  else some "****"

/-- `SELECT COUNT(*)` of a user's rows -/
def deviceCount (s : DeviceDb) (userId : Snowflake) : ℕ := s.deviceTokens.count fun r => r.userId = userId.toI64

/-- `deviceId` is what `next_id` gives; the answer is `none` if the handler panics -/
def registerDevice (s : DeviceDb) (auth : Snowflake) (body : RegisterDeviceRequest) (deviceId : Snowflake)
    (now : DateTime) : Except AppError (Option DeviceResponse × DeviceDb) := do
  refuseIf (body.validate ≠ []) (.validation body.validate)
  refuseIf (10 ≤ deviceCount s auth) (.badRequest "Too many registered devices (maximum 10)")
  let s ← (PgDeviceTokenStore.register s deviceId auth body.platform body.token now).mapError fun e =>
    .internal e.display
  pure ((maskToken body.token).map fun token => ⟨deviceId, token, body.platform⟩, s)

def listDevices (s : DeviceDb) (auth : Snowflake) : Except AppError (Option (List DeviceResponse)) := do
  let tokens ← (PgDeviceTokenStore.getTokens s auth).mapError fun e => .internal e.display
  pure (tokens.mapM fun d => (maskToken d.token).map fun token => ⟨d.id.getD ⟨0⟩, token, d.platform⟩)

def unregisterDevice (s : DeviceDb) (auth : Snowflake) (deviceId : ℤ) : Except AppError DeviceDb := do
  let (removed, s) ← (PgDeviceTokenStore.unregisterById s auth (.ofI64 deviceId)).mapError fun e => .internal e.display
  refuseIf (!removed) (.notFound "Device not found")
  pure s

variable {s s' : DeviceDb} {auth deviceId : Snowflake} {body : RegisterDeviceRequest} {now : DateTime}
  {response : Option DeviceResponse}

/-! ## What a registration does -/

/-- the row that holds the token of the user -/
def rowOf (s : DeviceDb) (userId : Snowflake) (token : String) : Option DeviceTokenRow :=
  s.deviceTokens.find? fun r => r.key = (userId.toI64, token)

/-- the row that a registration inserts -/
def newRow (auth : Snowflake) (body : RegisterDeviceRequest) (deviceId : Snowflake) (now : DateTime) : DeviceTokenRow :=
  ⟨deviceId.toI64, auth.toI64, platformToI16 body.platform, body.token, now⟩

theorem validate_eq_nil : body.validate = [] ↔ 1 ≤ body.token.length ∧ body.token.length ≤ 512 := by
  rw [RegisterDeviceRequest.validate, lengthErrors]
  split_ifs with h <;> simp [h]

theorem rowOf_eq_some {token : String} {r : DeviceTokenRow} :
    rowOf s auth token = some r ↔ r ∈ s.deviceTokens ∧ r.key = (auth.toI64, token) := Table.find?_key

theorem registerDevice_eq_ok (h : registerDevice s auth body deviceId now = .ok (response, s')) :
    body.validate = [] ∧ deviceCount s auth < 10 ∧ s' = s.put (newRow auth body deviceId now) ∧
      response = (maskToken body.token).map fun token => ⟨deviceId, token, body.platform⟩ := by
  obtain ⟨_, hvalid, h⟩ := bind_eq_ok.1 h
  obtain ⟨_, hcount, h⟩ := bind_eq_ok.1 h
  obtain ⟨p, hp, h⟩ := bind_eq_ok.1 h
  have hvalid : body.validate = [] := not_not.1 (refuseIf_eq_ok.1 hvalid)
  obtain ⟨token, hvarchar, -, rfl⟩ := upsertToken_eq_ok (mapErr_eq_ok.1 (mapError_eq_ok.1 hp))
  obtain ⟨hresponse, rfl⟩ := Prod.mk.inj (Except.ok.inj h)
  have htoken : token = body.token := by
    rw [varchar_eq_ok hvarchar, fitted_eq_iff]
    exact (validate_eq_nil.1 hvalid).2
  subst htoken
  exact ⟨hvalid, Nat.lt_of_not_le (refuseIf_eq_ok.1 hcount), rfl, hresponse.symm⟩

/-- a token that the user has is not refused for anything but the number of rows -/
theorem registerDevice_of_row (deviceId : Snowflake) (now : DateTime) {r : DeviceTokenRow}
    (hvalid : body.validate = []) (htext : isText body.token = true) (hcount : deviceCount s auth < 10)
    (hrow : rowOf s auth body.token = some r) :
    registerDevice s auth body deviceId now =
      .ok ((maskToken body.token).map fun token => ⟨deviceId, token, body.platform⟩,
        s.put (newRow auth body deviceId now)) := by
  obtain ⟨hr, hkey⟩ := rowOf_eq_some.1 hrow
  have hconflict : (s.deviceTokens.any fun r => r.key = (auth.toI64, body.token)) = true :=
    Table.any_eq_true.2 ⟨r, hr, decide_eq_true hkey⟩
  have hregister : PgDeviceTokenStore.register s deviceId auth body.platform body.token now =
      .ok (s.put (newRow auth body deviceId now)) := by
    refine mapErr_eq_ok.2 (bind_eq_ok.2 ⟨body.token, varchar_of_fits (validate_eq_nil.1 hvalid).2 htext, ?_⟩)
    refine bind_eq_ok.2 ⟨(), requires_eq_ok.2 ?_, bind_eq_ok.2 ⟨(), requires_eq_ok.2 ?_, rfl⟩⟩
    · exact Bool.or_eq_true_iff.2 (.inl hconflict)
    · exact Bool.or_eq_true_iff.2 (.inl hconflict)
  refine bind_eq_ok.2 ⟨(), refuseIf_eq_ok.2 (not_not.2 hvalid), bind_eq_ok.2 ⟨(), refuseIf_eq_ok.2 (by omega), ?_⟩⟩
  exact bind_eq_ok.2 ⟨_, mapError_eq_ok.2 hregister, rfl⟩

/-- the row afterwards: the new one, or the old one with the platform of the request -/
theorem rowOf_put : rowOf (s.put (newRow auth body deviceId now)) auth body.token =
    some ((rowOf s auth body.token).elim (newRow auth body deviceId now)
      fun r => { r with platform := platformToI16 body.platform }) := by
  let row := newRow auth body deviceId now
  have hkeep : ∀ r : DeviceTokenRow, ({ r with platform := row.platform } : DeviceTokenRow).key = r.key := fun _ => rfl
  exact (Table.find?_upsert (t := s.deviceTokens) (a := row) hkeep (auth.toI64, body.token)).trans (if_pos rfl)

/-- the rows if one of them has the key already -/
theorem rows_put_of_key {row : DeviceTokenRow} (h : ∃ r ∈ s.deviceTokens, r.key = row.key) :
    (s.put row).deviceTokens = s.deviceTokens.updateWhere (fun r => r.key = row.key)
      (fun r => { r with platform := row.platform }) fun _ => rfl := Table.upsert_of_key h

theorem length_put_of_row {r : DeviceTokenRow} (hrow : rowOf s auth body.token = some r) :
    (s.put (newRow auth body deviceId now)).deviceTokens.rows.length = s.deviceTokens.rows.length := by
  obtain ⟨hr, hkey⟩ := rowOf_eq_some.1 hrow
  have hsame : r.key = (newRow auth body deviceId now).key := hkey
  rw [rows_put_of_key ⟨r, hr, hsame⟩]
  exact List.length_map _

/-- no user but that of the row has more rows than before -/
theorem deviceCount_put (row : DeviceTokenRow) (u : Snowflake) :
    deviceCount (s.put row) u ≤ deviceCount s u + if row.userId = u.toI64 then 1 else 0 := by
  by_cases hkey : ∃ r ∈ s.deviceTokens, r.key = row.key
  · refine le_trans (le_of_eq ?_) (Nat.le_add_right _ _)
    rw [deviceCount, rows_put_of_key hkey]
    exact Table.count_updateWhere _ fun _ => rfl
  · have hrows : (s.put row).deviceTokens.rows = s.deviceTokens.rows ++ [row] :=
      Table.rows_upsert_of_forall_ne fun r hr hsame => hkey ⟨r, hr, hsame⟩
    rw [deviceCount, Table.count, hrows, List.countP_append, List.countP_singleton]
    simp only [decide_eq_true_eq]
    exact le_rfl

/-! ## Repeated registrations -/

/-- a token that the user has is registered again, without a row more -/
def Again (s : DeviceDb) (auth : Snowflake) (body : RegisterDeviceRequest) (deviceId : Snowflake) (now : DateTime) :
    Prop :=
  (rowOf s auth body.token).isSome → ∃ response s', registerDevice s auth body deviceId now = .ok (some response, s') ∧
    s'.deviceTokens.rows.length = s.deviceTokens.rows.length

/-- the id of an answer is that of the row with the token, and the row can be deleted with it -/
def IdUsable (s : DeviceDb) (auth : Snowflake) (body : RegisterDeviceRequest) (deviceId : Snowflake) (now : DateTime) :
    Prop :=
  ∀ response s', registerDevice s auth body deviceId now = .ok (some response, s') →
    (rowOf s' auth body.token).map DeviceTokenRow.id = some response.id.toI64 ∧
      ∃ s'', unregisterDevice s' auth response.id.toI64 = .ok s'' ∧ rowOf s'' auth body.token = none

/-- a request to register -/
structure Registration where
  auth : Snowflake
  body : RegisterDeviceRequest
  deviceId : Snowflake
  now : DateTime
deriving DecidableEq, Repr

def registerStep (s : DeviceDb) (o : Registration) : DeviceDb :=
  match registerDevice s o.auth o.body o.deviceId o.now with
  | .ok (_, s') => s'
  | .error _ => s

theorem deviceCount_registerStep (o : Registration) (u : Snowflake) :
    deviceCount (registerStep s o) u ≤ max 10 (deviceCount s u) := by
  rw [registerStep]
  rcases h : registerDevice s o.auth o.body o.deviceId o.now with e | ⟨response, s'⟩
  · exact le_max_right _ _
  · obtain ⟨-, hcount, rfl, -⟩ := registerDevice_eq_ok h
    dsimp only
    have hput := deviceCount_put (s := s) (newRow o.auth o.body o.deviceId o.now) u
    split_ifs at hput with hsame
    · obtain rfl := toI64_inj hsame
      omega
    · omega

theorem deviceCount_run (ops : List Registration) (u : Snowflake) :
    deviceCount (run registerStep s ops) u ≤ max 10 (deviceCount s u) := by
  refine run_inv (I := fun s' => deviceCount s' u ≤ max 10 (deviceCount s u)) (fun s' o h => ?_) (le_max_right _ _) ops
  have hstep := deviceCount_registerStep (s := s') o u
  omega

/-- a row is deleted by its own id -/
theorem unregisterDevice_of_row {token : String} {r : DeviceTokenRow} (hrow : rowOf s auth token = some r)
    {id : Snowflake} (hid : r.id = id.toI64) :
    ∃ s', unregisterDevice s auth id.toI64 = .ok s' ∧ rowOf s' auth token = none := by
  obtain ⟨hr, hkey⟩ := rowOf_eq_some.1 hrow
  have huser : r.userId = auth.toI64 := (Prod.mk.inj hkey).1
  let p := fun r : DeviceTokenRow => decide (r.id = id.toI64) && decide (r.userId = auth.toI64)
  have hp : p r = true := by
    simp only [p, hid, huser, decide_true, Bool.and_self]
  have hpos : 0 < s.deviceTokens.count p := List.countP_pos_iff.2 ⟨r, hr, hp⟩
  refine ⟨s.without p, ?_, ?_⟩
  · refine bind_eq_ok.2 ⟨(s.deviceTokens.count p > 0, s.without p), mapError_eq_ok.2 ?_, ?_⟩
    · rw [PgDeviceTokenStore.unregisterById, Snowflake.ofI64_toI64]
    · refine bind_eq_ok.2 ⟨(), refuseIf_eq_ok.2 ?_, rfl⟩
      simpa using hpos.ne'
  · refine (Table.find?_deleteWhere (auth.toI64, token)).trans ?_
    rw [show s.deviceTokens.find? (fun r => r.key = (auth.toI64, token)) = some r from hrow, Option.filter_some, hp]
    rfl

/-- **A registration is idempotent, and its id usable, exactly for a token that the user does not have.** The rest of
the condition never holds of a fresh id: the row would have to have the id that was drawn for the request. The limit of
ten rows holds in every run. -/
theorem registration_iff (s : DeviceDb) (auth : Snowflake) (body : RegisterDeviceRequest) (deviceId : Snowflake)
    (now : DateTime) (hvalid : body.validate = []) (htext : isText body.token = true) :
    (Again s auth body deviceId now ∧ IdUsable s auth body deviceId now ↔
      ∀ r, rowOf s auth body.token = some r →
        r.id = deviceId.toI64 ∧ deviceCount s auth < 10 ∧ (maskToken body.token).isSome) ∧
      ∀ (ops : List Registration) u, deviceCount (run registerStep s ops) u ≤ max 10 (deviceCount s u) := by
  refine ⟨⟨?_, fun hcond => ⟨fun hrow => ?_, fun response s' h => ?_⟩⟩, deviceCount_run⟩
  · rintro ⟨hagain, husable⟩ r hrow
    obtain ⟨response, s', h, -⟩ := hagain (Option.isSome_iff_exists.2 ⟨r, hrow⟩)
    obtain ⟨hid, -⟩ := husable response s' h
    obtain ⟨-, hcount, rfl, hresponse⟩ := registerDevice_eq_ok h
    obtain ⟨token, htoken, rfl⟩ := Option.map_eq_some_iff.1 hresponse.symm
    rw [rowOf_put, hrow] at hid
    exact ⟨Option.some.inj hid, hcount, Option.isSome_iff_exists.2 ⟨token, htoken⟩⟩
  · obtain ⟨r, hrow⟩ := Option.isSome_iff_exists.1 hrow
    obtain ⟨-, hcount, hmask⟩ := hcond r hrow
    obtain ⟨token, htoken⟩ := Option.isSome_iff_exists.1 hmask
    have hok := registerDevice_of_row deviceId now hvalid htext hcount hrow
    rw [htoken] at hok
    exact ⟨_, _, hok, length_put_of_row hrow⟩
  · obtain ⟨-, -, rfl, hresponse⟩ := registerDevice_eq_ok h
    obtain ⟨token, -, rfl⟩ := Option.map_eq_some_iff.1 hresponse.symm
    have hid : (rowOf (s.put (newRow auth body deviceId now)) auth body.token).map DeviceTokenRow.id =
        some deviceId.toI64 := by
      rw [rowOf_put]
      rcases hrow : rowOf s auth body.token with _ | r
      · rfl
      · exact congrArg some (hcond r hrow).1
    obtain ⟨r, hr, hrid⟩ := Option.map_eq_some_iff.1 hid
    exact ⟨hid, unregisterDevice_of_row hr hrid⟩

/-- user 7 with one token -/
def holder : DeviceDb := ⟨oneUser, ⟨[⟨100, 7, 0, "abcdefghijkl", ⟨0⟩⟩], by decide⟩⟩

def held : RegisterDeviceRequest := ⟨"abcdefghijkl", .ios⟩

/-- **A token that is registered again is answered with an id that no row has.** -/
theorem stale_id :
    registerDevice holder (.ofI64 7) held ⟨200⟩ ⟨1⟩ = .ok (some ⟨⟨200⟩, "abcd...ijkl", .ios⟩, holder) ∧
      (rowOf holder (.ofI64 7) held.token).map DeviceTokenRow.id = some 100 ∧
      unregisterDevice holder (.ofI64 7) 200 = .error (.notFound "Device not found") ∧
      ¬ (Again holder (.ofI64 7) held ⟨200⟩ ⟨1⟩ ∧ IdUsable holder (.ofI64 7) held ⟨200⟩ ⟨1⟩) := by
  have hregister : registerDevice holder (.ofI64 7) held ⟨200⟩ ⟨1⟩ =
      .ok (some ⟨⟨200⟩, "abcd...ijkl", .ios⟩, holder) := rfl
  have hrow : (rowOf holder (.ofI64 7) held.token).map DeviceTokenRow.id = some 100 := by decide
  refine ⟨hregister, hrow, rfl, ?_⟩
  rintro ⟨-, husable⟩
  obtain ⟨hid, -⟩ := husable _ _ hregister
  rw [hrow] at hid
  exact absurd hid (by decide)

/-- ten tokens of user 7 -/
def full : DeviceDb :=
  ⟨oneUser, ⟨(List.range 10).map fun n => ⟨n, 7, 0, "token " ++ toString n, ⟨0⟩⟩, by decide⟩⟩

example : registerDevice full (.ofI64 7) ⟨"token 3", .ios⟩ ⟨200⟩ ⟨1⟩ =
    .error (.badRequest "Too many registered devices (maximum 10)") := rfl

theorem registration_iff_new : Again holder (.ofI64 7) ⟨"other", .ios⟩ ⟨200⟩ ⟨1⟩ ∧
    IdUsable holder (.ofI64 7) ⟨"other", .ios⟩ ⟨200⟩ ⟨1⟩ := by
  refine (registration_iff holder (.ofI64 7) ⟨"other", .ios⟩ ⟨200⟩ ⟨1⟩ (by decide) (by decide)).1.2 fun r hr => ?_
  have hnone : rowOf holder (.ofI64 7) "other" = none := by decide
  cases hnone.symm.trans hr

/-! ## The mask -/

/-- the text has at most eight bytes, or characters begin at the fifth byte and at the fourth from the end -/
def Cuttable (token : String) : Prop :=
  token.utf8ByteSize ≤ 8 ∨
    (∃ first rest, first ++ rest = token ∧ first.utf8ByteSize = 4) ∧
      ∃ rest last, rest ++ last = token ∧ last.utf8ByteSize = 4

/-- nothing of a short text is shown, and of a longer one the first and the last four bytes -/
def Hides (mask token : String) : Prop :=
  token.utf8ByteSize ≤ 8 ∧ mask = "****" ∨
    ∃ first rest last, token = first ++ rest ++ last ∧ first.utf8ByteSize = 4 ∧ last.utf8ByteSize = 4 ∧
      mask = first ++ "..." ++ last

theorem maskToken_of_le {token : String} (h : token.utf8ByteSize ≤ 8) : maskToken token = some "****" :=
  if_neg (Nat.not_lt.2 h)

theorem maskToken_of_lt {token mask : String} (h : 8 < token.utf8ByteSize) : maskToken token = some mask ↔
    ∃ first rest rest' last, first ++ rest = token ∧ first.utf8ByteSize = 4 ∧ rest' ++ last = token ∧
      last.utf8ByteSize = 4 ∧ mask = first ++ "..." ++ last := by
  rw [maskToken, if_pos h]
  constructor
  · intro hmask
    obtain ⟨⟨first, rest⟩, hfirst, hmask⟩ := Option.bind_eq_some_iff.1 hmask
    obtain ⟨⟨rest', last⟩, hlast, hmask⟩ := Option.bind_eq_some_iff.1 hmask
    obtain ⟨happend, hsize⟩ := Str.splitAtByte_eq_some.1 hfirst
    obtain ⟨happend', hsize'⟩ := Str.splitAtByte_eq_some.1 hlast
    have htotal := congrArg String.utf8ByteSize happend'
    rw [String.utf8ByteSize_append] at htotal
    exact ⟨first, rest, rest', last, happend, hsize, happend', by omega, (Option.some.inj hmask).symm⟩
  · rintro ⟨first, rest, rest', last, happend, hsize, happend', hsize', rfl⟩
    have htotal := congrArg String.utf8ByteSize happend'
    rw [String.utf8ByteSize_append] at htotal
    have hfirst := Str.splitAtByte_eq_some.2 ⟨happend, hsize⟩
    have hlast : Str.splitAtByte (token.utf8ByteSize - 4) token = some (rest', last) :=
      Str.splitAtByte_eq_some.2 ⟨happend', by omega⟩
    exact Option.bind_eq_some_iff.2 ⟨_, hfirst, Option.bind_eq_some_iff.2 ⟨_, hlast, rfl⟩⟩

theorem maskToken_isSome_iff {token : String} : (maskToken token).isSome ↔ Cuttable token := by
  rcases Nat.lt_or_ge 8 token.utf8ByteSize with h | h
  · rw [Option.isSome_iff_exists, Cuttable, or_iff_right (Nat.not_le.2 h)]
    simp only [maskToken_of_lt h]
    constructor
    · rintro ⟨-, first, rest, rest', last, happend, hsize, happend', hsize', -⟩
      exact ⟨⟨first, rest, happend, hsize⟩, rest', last, happend', hsize'⟩
    · rintro ⟨⟨first, rest, happend, hsize⟩, rest', last, happend', hsize'⟩
      exact ⟨_, first, rest, rest', last, happend, hsize, happend', hsize', rfl⟩
  · rw [maskToken_of_le h]
    exact iff_of_true rfl (.inl h)

/-- the part that is cut off at the end begins behind the one at the start -/
theorem exists_between {first rest rest' last : String} (h : first ++ rest = rest' ++ last)
    (hlt : first.utf8ByteSize < rest'.utf8ByteSize) : ∃ between, rest' = first ++ between := by
  have hlist := congrArg String.toList h
  rw [String.toList_append, String.toList_append, List.append_eq_append_iff] at hlist
  rcases hlist with ⟨between, hrest', -⟩ | ⟨between, hfirst, -⟩
  · refine ⟨String.ofList between, String.toList_inj.1 ?_⟩
    rw [hrest', String.toList_append, String.toList_ofList]
  · have hsize : first.utf8ByteSize = rest'.utf8ByteSize + (String.ofList between).utf8ByteSize := by
      rw [← String.utf8ByteSize_append, ← String.ofList_toList (s := first), hfirst, String.ofList_append,
        String.ofList_toList]
    omega

theorem hides_of_maskToken {token mask : String} (h : maskToken token = some mask) : Hides mask token := by
  rcases Nat.lt_or_ge 8 token.utf8ByteSize with hlong | hshort
  · obtain ⟨first, rest, rest', last, happend, hsize, happend', hsize', rfl⟩ := (maskToken_of_lt hlong).1 h
    have htotal := congrArg String.utf8ByteSize happend'
    rw [String.utf8ByteSize_append] at htotal
    obtain ⟨between, rfl⟩ := exists_between (happend.trans happend'.symm) (by omega)
    exact .inr ⟨first, between, last, happend'.symm, hsize, hsize', rfl⟩
  · rw [maskToken_of_le hshort] at h
    exact .inl ⟨hshort, (Option.some.inj h).symm⟩

theorem isSome_mapM {α β : Type} {f : α → Option β} {l : List α} : (l.mapM f).isSome ↔ ∀ a ∈ l, (f a).isSome := by
  induction l with
  | nil => simp
  | cons a l ih =>
    rw [List.mapM_cons, List.forall_mem_cons, ← ih]
    rcases f a with _ | b
    · simp
    · rcases l.mapM f with _ | bs <;> simp

/-- a list comes back if every token in it can be cut -/
theorem listDevices_isSome {answer : Option (List DeviceResponse)} (h : listDevices s auth = .ok answer) :
    answer.isSome ↔ ∀ r ∈ s.deviceTokens, r.userId = auth.toI64 → Cuttable r.token := by
  obtain ⟨tokens, htokens, h⟩ := bind_eq_ok.1 h
  obtain rfl := Except.ok.inj h
  have hreads : tokens.map DeviceToken.token = (rowsOf s auth).map DeviceTokenRow.token :=
    map_token_of_reads (mapM_reads (mapError_eq_ok.1 htokens))
  have hall : (∀ d ∈ tokens, Cuttable d.token) ↔ ∀ r ∈ rowsOf s auth, Cuttable r.token := by
    rw [← List.forall_mem_map (f := DeviceToken.token) (P := Cuttable), hreads, List.forall_mem_map]
  simp only [isSome_mapM, Option.isSome_map, maskToken_isSome_iff, hall, mem_rowsOf, and_imp]

/-- **The mask hides what it should, and panics on every other token than the cuttable ones.** A registration of such a
token is stored and not answered, and no list that it is in is ever answered again. -/
theorem masking_iff (s s' : DeviceDb) (auth deviceId : Snowflake) (body : RegisterDeviceRequest) (now : DateTime)
    (response : Option DeviceResponse) (haccepted : registerDevice s auth body deviceId now = .ok (response, s')) :
    ((maskToken body.token).isSome ∧ response.isSome ∧
        (∀ mask, maskToken body.token = some mask → Hides mask body.token) ↔ Cuttable body.token) ∧
      ∀ (t : DeviceDb) answer, listDevices t auth = .ok answer →
        (answer.isSome ↔ ∀ r ∈ t.deviceTokens, r.userId = auth.toI64 → Cuttable r.token) := by
  obtain ⟨-, -, -, rfl⟩ := registerDevice_eq_ok haccepted
  refine ⟨?_, fun t answer h => listDevices_isSome h⟩
  rw [Option.isSome_map, maskToken_isSome_iff]
  exact ⟨And.left, fun h => ⟨h, h, fun mask hmask => hides_of_maskToken hmask⟩⟩

/-- a token whose fourth character is three bytes long -/
def euro : RegisterDeviceRequest := ⟨"abc€defghi", .android⟩

def euroStored : DeviceDb := ⟨oneUser, ⟨[⟨200, 7, 1, "abc€defghi", ⟨0⟩⟩], by decide⟩⟩

/-- **A character across the fifth byte: the token is stored, and no request about it is answered.** -/
theorem split_character :
    registerDevice ⟨oneUser, .empty⟩ (.ofI64 7) euro ⟨200⟩ ⟨0⟩ = .ok (none, euroStored) ∧
      maskToken euro.token = none ∧ listDevices euroStored (.ofI64 7) = .ok none :=
  ⟨rfl, by decide, rfl⟩

theorem masking_iff_plain : (maskToken held.token).isSome ∧ ∀ mask, maskToken held.token = some mask →
    Hides mask held.token := by
  have hregister : registerDevice holder (.ofI64 7) held ⟨200⟩ ⟨1⟩ =
      .ok (some ⟨⟨200⟩, "abcd...ijkl", .ios⟩, holder) := rfl
  have hcut : Cuttable held.token := maskToken_isSome_iff.1 (by decide)
  obtain ⟨hmask, -, hhides⟩ := (masking_iff _ _ _ _ _ _ _ hregister).1.2 hcut
  exact ⟨hmask, hhides⟩

end Lumiere.Routes
