/-
The push service as the server runs it (`lumiere-push/src/lib.rs`): with its clients of APNs and FCM, one of which may
panic, and over either store (`TokenStoreBackend`). A query on the table may fail: then the user whose devices are read
counts as one without devices, and the token that is deleted stays. A panic ends the batch where it is.

- `Goes`: what a stretch of a batch does, composed by `Goes.trans` (`goes_device`, `goes_devices`, `goes_user`).
- `goes_batch`: a batch that does not panic comes to a device whose token stays valid as often as it is stored.
- `panics_iff`: a batch panics exactly if it comes to a device whose token cannot be cut at its eighth byte and has to be:
  for FCM says that it is dead, or for the event that it was delivered to is recorded.
- `sendToUsers_service`: over the vectors, such a batch is one of `PushService`.
-/
import Lumiere.Push.Clients

namespace Lumiere.Push

open Lumiere.Core Lumiere.Models Lumiere.Db

/-! ## The stores -/

inductive TokenStoreBackend where
  | inMemory (s : DeviceTokenStore)
  /-- `fails` says of each query to come whether it fails -/
  | postgres (s : DeviceDb) (fails : ℕ → Bool)

namespace TokenStoreBackend

/-- `none` where the error is logged and no devices are returned -/
def getTokens (userId : Snowflake) : TokenStoreBackend → Option (List DeviceToken) × TokenStoreBackend
  | .inMemory s => (some (s.getTokens userId), .inMemory s)
  | .postgres s fails =>
    (if fails 0 then none else (PgDeviceTokenStore.getTokens s userId).toOption, .postgres s fun n => fails (n + 1))

def removeInvalidToken (token : String) : TokenStoreBackend → TokenStoreBackend
  | .inMemory s => .inMemory (s.removeInvalidToken token)
  | .postgres s fails =>
    .postgres (if fails 0 then s else (PgDeviceTokenStore.removeInvalidToken s token).toOption.getD s)
      fun n => fails (n + 1)

/-- how often the device is stored under its user -/
def copies (d : DeviceToken) : TokenStoreBackend → ℕ
  | .inMemory s => (s.getTokens d.userId).count d
  | .postgres s _ => s.deviceTokens.count fun row =>
    decide (row.userId = d.userId.toI64) && decide ((DeviceToken.tryFrom row).toOption = some d)

/-- every device is stored under its user -/
def Owned : TokenStoreBackend → Prop
  | .inMemory s => ∀ userId, ∀ d ∈ s.getTokens userId, d.userId = userId
  | .postgres .. => True

end TokenStoreBackend

/-! ## The service -/

/-- the clients that are configured, and what the sends are told, by the number of the attempt -/
structure Clients where
  apns : Bool
  fcm : Bool
  /-- whether the filter of the log lets the debug events of the clients pass, as the default of the server does -/
  debug : Bool
  parse : String → Option Value
  told : ℕ → PushNotification → Told

/-- one call of `send_to_device` -/
structure Tried where
  device : DeviceToken
  notification : PushNotification
  ended : Ended

/-- the store, the calls so far and the users whose devices could not be read -/
structure Batch where
  store : TokenStoreBackend
  tried : List Tried
  unread : List Snowflake

namespace Clients

def configured (c : Clients) : Platform → Bool
  | .ios => c.apns
  | .android => c.fcm

def sendToDevice (c : Clients) (attempt : ℕ) (device : DeviceToken) (notification : PushNotification) : Ended :=
  if c.configured device.platform then device.platform.send c.debug c.parse (c.told attempt notification) device.token
  else some (.error (.platformNotConfigured device.platform))

/-- the loop over the devices of a user; without a count if a send panics -/
def sendToDevices (c : Clients) (notification : PushNotification) :
    ℕ → Batch → List DeviceToken → Option ℕ × Batch
  | successCount, s, [] => (some successCount, s)
  | successCount, s, device :: devices =>
    let ended := c.sendToDevice s.tried.length device notification
    let s := { s with tried := s.tried ++ [⟨device, notification, ended⟩] }
    match ended with
    | none => (none, s)
    | some (.ok ()) => c.sendToDevices notification (successCount + 1) s devices
    | some (.error (.invalidToken _)) =>
      c.sendToDevices notification successCount { s with store := s.store.removeInvalidToken device.token } devices
    | some (.error _) => c.sendToDevices notification successCount s devices

def sendToUser (c : Clients) (notification : PushNotification) (s : Batch) (userId : Snowflake) :
    Option (Except PushError ℕ) × Batch :=
  match s.store.getTokens userId with
  | (none, store) => (some (.error (.tokenNotFound userId)), { s with store, unread := s.unread ++ [userId] })
  | (some devices, store) =>
    if devices.isEmpty then (some (.error (.tokenNotFound userId)), { s with store })
    else
      let (successCount, s) := c.sendToDevices notification 0 { s with store } devices
      (successCount.map .ok, s)

/-- the loop over the users -/
def sendToUsersFrom (c : Clients) (notification : PushNotification) : ℕ → Batch → List Snowflake → Option ℕ × Batch
  | total, s, [] => (some total, s)
  | total, s, userId :: userIds =>
    match c.sendToUser notification s userId with
    | (none, s) => (none, s)
    | (some (.ok n), s) => c.sendToUsersFrom notification (total + n) s userIds
    | (some (.error _), s) => c.sendToUsersFrom notification total s userIds

def sendToUsers (c : Clients) (store : TokenStoreBackend) (userIds : List Snowflake)
    (notification : PushNotification) : Option ℕ × Batch :=
  c.sendToUsersFrom notification 0 ⟨store, [], []⟩ userIds

end Clients

/-! ## A stretch of a batch -/

def Tried.delivered (a : Tried) : Bool :=
  match a.ended with
  | some (.ok ()) => true
  | _ => false

def Tried.invalid (a : Tried) : Bool :=
  match a.ended with
  | some (.error (.invalidToken _)) => true
  | _ => false

def Tried.panicked (a : Tried) : Bool := a.ended.isNone

/-- the tokens that some send found invalid -/
def foundInvalid (tried : List Tried) : List String := (tried.filter Tried.invalid).map fun a => a.device.token

/-- the store without tokens of the list: the vectors without all, the table perhaps still with some -/
inductive Shrinks (tokens : List String) : TokenStoreBackend → TokenStoreBackend → Prop where
  | inMemory (s : DeviceTokenStore) : Shrinks tokens (.inMemory s) (.inMemory (s.without tokens))
  | postgres (s : DeviceDb) (fails fails' : ℕ → Bool) (gone : List String) (hgone : ∀ token ∈ gone, token ∈ tokens) :
      Shrinks tokens (.postgres s fails) (.postgres (s.without fun r => decide (r.token ∈ gone)) fails')

/-- from one state to another by these calls; `count` is how many succeeded, or nothing if the last panicked -/
structure Goes (c : Clients) (notification : PushNotification) (s s' : Batch) (l : List Tried) (count : Option ℕ) :
    Prop where
  tried : s'.tried = s.tried ++ l
  ended : ∀ i a, l[i]? = some a →
    a.notification = notification ∧ a.ended = c.sendToDevice (s.tried.length + i) a.device notification
  panic : count = none ↔ l.any Tried.panicked = true
  count : ∀ n, count = some n → n = l.countP Tried.delivered
  store : Shrinks (foundInvalid l) s.store s'.store

section Goes

variable {c : Clients} {notification : PushNotification} {s s' s'' : Batch} {l l' : List Tried} {n n' : Option ℕ}
  {x y : List String} {b b' b'' : TokenStoreBackend}

theorem foundInvalid_append (l l' : List Tried) : foundInvalid (l ++ l') = foundInvalid l ++ foundInvalid l' := by
  simp only [foundInvalid, List.filter_append, List.map_append]

theorem DeviceDb.without_nil (s : DeviceDb) : (s.without fun r => decide (r.token ∈ ([] : List String))) = s := by
  have htable : s.deviceTokens.deleteWhere (fun r => decide (r.token ∈ ([] : List String))) = s.deviceTokens := by
    rw [Table.deleteWhere_eq_self]
    simp
  rw [DeviceDb.without, htable]

theorem DeviceDb.without_append (s : DeviceDb) (x y : List String) :
    ((s.without fun r => decide (r.token ∈ x)).without fun r => decide (r.token ∈ y)) =
      s.without fun r => decide (r.token ∈ x ++ y) := by
  simp only [DeviceDb.without, DeviceDb.mk.injEq, true_and]
  refine Table.ext_rows ?_
  simp only [Table.deleteWhere, List.filter_filter]
  refine List.filter_congr fun r _ => ?_
  simp only [List.mem_append, Bool.decide_or, Bool.not_or, Bool.and_comm]

theorem Shrinks.stays (s : DeviceDb) (fails fails' : ℕ → Bool) : Shrinks x (.postgres s fails) (.postgres s fails') := by
  have h : Shrinks x (.postgres s fails) (.postgres (s.without fun r => decide (r.token ∈ ([] : List String))) fails') :=
    .postgres s fails fails' [] (by simp)
  rwa [DeviceDb.without_nil] at h

theorem Shrinks.refl (b : TokenStoreBackend) : Shrinks [] b b := by
  cases b with
  | inMemory s =>
    have h : Shrinks [] (.inMemory s) (.inMemory (s.without [])) := .inMemory s
    rwa [without_nil] at h
  | postgres s fails => exact .stays s fails fails

theorem Shrinks.trans (h : Shrinks x b b') (h' : Shrinks y b' b'') : Shrinks (x ++ y) b b'' := by
  cases h with
  | inMemory s =>
    cases h'
    rw [← without_append]
    exact .inMemory s
  | postgres s fails fails' gone hgone =>
    cases h' with
    | postgres _ _ fails'' gone' hgone' =>
      rw [DeviceDb.without_append]
      refine .postgres s fails fails'' _ fun token htoken => ?_
      rcases List.mem_append.mp htoken with hold | hnew
      · exact List.mem_append_left y (hgone token hold)
      · exact List.mem_append_right x (hgone' token hnew)

theorem shrinks_removeInvalidToken (token : String) (b : TokenStoreBackend) :
    Shrinks [token] b (b.removeInvalidToken token) := by
  cases b with
  | inMemory s =>
    have h : Shrinks [token] (.inMemory s) (.inMemory (s.without [token])) := .inMemory s
    rwa [without_singleton] at h
  | postgres s fails =>
    unfold TokenStoreBackend.removeInvalidToken
    dsimp only
    split_ifs with hfails
    · exact .stays s fails _
    · rcases hremove : PgDeviceTokenStore.removeInvalidToken s token with e | s'
      · exact .stays s fails _
      · have hgone : Shrinks [token] (.postgres s fails) (.postgres (s.without fun r => decide (r.token ∈ [token]))
            fun n => fails (n + 1)) := .postgres s fails _ [token] (by simp)
        rw [removeInvalidToken_eq_ok hremove]
        simpa only [List.mem_singleton, Except.toOption, Option.getD_some] using hgone

/-- a read leaves the rows alone -/
theorem shrinks_getTokens (userId : Snowflake) (b : TokenStoreBackend) : Shrinks [] b (b.getTokens userId).2 := by
  cases b with
  | inMemory s => exact .refl _
  | postgres s fails => exact .stays s fails _

theorem count_of_mapM {α β ε : Type} [DecidableEq β] {f : α → Except ε β} {l : List α} {l' : List β}
    (h : l.mapM f = .ok l') (b : β) : l'.count b = l.countP fun a => decide ((f a).toOption = some b) := by
  induction l generalizing l' with
  | nil =>
    obtain rfl := Except.ok.inj h
    rfl
  | cons a l ih =>
    rw [List.mapM_cons] at h
    obtain ⟨b', hb', h⟩ := bind_eq_ok.1 h
    obtain ⟨rest, hrest, h⟩ := bind_eq_ok.1 h
    obtain rfl := Except.ok.inj h
    rw [List.count_cons, List.countP_cons, ih hrest, hb']
    simp [Except.toOption]

theorem tryFrom_eq_some {row : DeviceTokenRow} {d : DeviceToken} (h : (DeviceToken.tryFrom row).toOption = some d) :
    d.userId = .ofI64 row.userId ∧ d.token = row.token := by
  unfold DeviceToken.tryFrom at h
  rcases hplatform : platformFromI16 row.platform with e | platform
  · rw [hplatform] at h
    cases h
  · rw [hplatform] at h
    obtain rfl := Option.some.inj h
    exact ⟨rfl, rfl⟩

/-- what a read returns of a device -/
theorem getTokens_count {userId : Snowflake} {devices : List DeviceToken} (howned : b.Owned)
    (h : (b.getTokens userId).1 = some devices) (d : DeviceToken) :
    devices.count d = if d.userId = userId then b.copies d else 0 := by
  cases b with
  | inMemory s =>
    obtain rfl := Option.some.inj h
    split_ifs with hd
    · rw [← hd]
      rfl
    · rw [List.count_eq_zero]
      exact fun hmem => hd (howned userId d hmem)
  | postgres s fails =>
    simp only [TokenStoreBackend.getTokens] at h
    split_ifs at h
    rcases hread : PgDeviceTokenStore.getTokens s userId with e | devices'
    · rw [hread] at h
      cases h
    · rw [hread] at h
      obtain rfl := Option.some.inj h
      rw [count_of_mapM hread, (List.perm_insertionSort _ _).countP_eq, Table.select, List.countP_filter]
      split_ifs with hd
      · subst hd
        simp [TokenStoreBackend.copies, Table.count, Bool.and_comm]
      · rw [List.countP_eq_zero]
        intro row _ hrow
        simp only [Bool.and_eq_true, decide_eq_true_eq] at hrow
        refine hd ?_
        rw [(tryFrom_eq_some hrow.1).1, hrow.2, Snowflake.ofI64_toI64]

/-- a device whose token is not found invalid is stored as before -/
theorem Shrinks.copies (h : Shrinks x b b') {d : DeviceToken} (hd : d.token ∉ x) : b'.copies d = b.copies d := by
  cases h with
  | inMemory s =>
    simp only [TokenStoreBackend.copies, getTokens_without]
    exact List.count_filter (by simpa using hd)
  | postgres s fails fails' gone hgone =>
    simp only [TokenStoreBackend.copies, DeviceDb.without, Table.count, Table.deleteWhere, List.countP_filter]
    refine List.countP_congr fun row _ => ?_
    simp only [Bool.and_eq_true, decide_eq_true_eq, Bool.not_eq_true', decide_eq_false_iff_not, and_iff_left_iff_imp]
    rintro ⟨-, hrow⟩ hmem
    exact hd ((tryFrom_eq_some hrow).2 ▸ hgone _ hmem)

theorem Shrinks.owned (h : Shrinks x b b') (howned : b.Owned) : b'.Owned := by
  cases h with
  | inMemory s =>
    intro userId d hd
    rw [getTokens_without] at hd
    exact howned userId d (List.mem_filter.mp hd).1
  | postgres => trivial

theorem Goes.refl (s : Batch) : Goes c notification s s [] (some 0) where
  tried := (List.append_nil _).symm
  ended i a h := by simp at h
  panic := by simp
  count n h := (Option.some.inj h).symm
  store := .refl _

/-- a stretch that does not panic, and another after it -/
theorem Goes.trans {k : ℕ} (h : Goes c notification s s' l (some k)) (h' : Goes c notification s' s'' l' n') :
    Goes c notification s s'' (l ++ l') (n'.map (k + ·)) where
  tried := by rw [h'.tried, h.tried, List.append_assoc]
  ended i a ha := by
    rcases lt_or_ge i l.length with hi | hi
    · rw [List.getElem?_append_left hi] at ha
      exact h.ended i a ha
    · rw [List.getElem?_append_right hi] at ha
      obtain ⟨hnotification, hended⟩ := h'.ended _ a ha
      rw [hended, h.tried, List.length_append, Nat.add_assoc, Nat.add_sub_cancel' hi]
      exact ⟨hnotification, rfl⟩
  panic := by
    have hno : l.any Tried.panicked = false := by
      rw [← Bool.not_eq_true, ← h.panic]
      exact Option.some_ne_none k
    rw [Option.map_eq_none_iff, h'.panic, List.any_append, hno, Bool.false_or]
  count m hm := by
    obtain ⟨m', rfl, rfl⟩ := Option.map_eq_some_iff.mp hm
    rw [List.countP_append, h.count k rfl, h'.count m' rfl]
  store := by
    rw [foundInvalid_append]
    exact h.store.trans h'.store

/-- **What one call does.** It is counted if it succeeds, takes its token out of the store if that is invalid, and ends the
batch if it panics. -/
theorem goes_device (c : Clients) (notification : PushNotification) (s : Batch) (device : DeviceToken)
    (devices : List DeviceToken) (successCount : ℕ) :
    ∃ s' n, Goes c notification s s' [⟨device, notification, c.sendToDevice s.tried.length device notification⟩] n ∧
      s'.unread = s.unread ∧ c.sendToDevices notification successCount s (device :: devices) =
        n.elim (none, s') fun k => c.sendToDevices notification (successCount + k) s' devices := by
  have hended : ∀ i a, [(⟨device, notification, c.sendToDevice s.tried.length device notification⟩ : Tried)][i]? = some a →
      a.notification = notification ∧ a.ended = c.sendToDevice (s.tried.length + i) a.device notification := by
    intro i a ha
    cases i with
    | zero =>
      obtain rfl := Option.some.inj ha
      exact ⟨rfl, rfl⟩
    | succ i => cases ha
  rw [Clients.sendToDevices]
  rcases hout : c.sendToDevice s.tried.length device notification with _ | e | ⟨⟩
  · refine ⟨{ s with tried := s.tried ++ [⟨device, notification, none⟩] }, none, ?_, rfl, rfl⟩
    exact ⟨rfl, hout ▸ hended, by simp [Tried.panicked], by simp, .refl _⟩
  · cases e with
    | invalidToken message =>
      refine ⟨⟨s.store.removeInvalidToken device.token, s.tried ++ [⟨device, notification, _⟩], s.unread⟩, some 0, ?_, rfl, rfl⟩
      exact ⟨rfl, hout ▸ hended, by simp [Tried.panicked], by simp [Tried.delivered], shrinks_removeInvalidToken _ _⟩
    | _ =>
      refine ⟨{ s with tried := s.tried ++ [⟨device, notification, _⟩] }, some 0, ?_, rfl, rfl⟩
      exact ⟨rfl, hout ▸ hended, by simp [Tried.panicked], by simp [Tried.delivered], .refl _⟩
  · refine ⟨{ s with tried := s.tried ++ [⟨device, notification, some (.ok ())⟩] }, some 1, ?_, rfl, rfl⟩
    exact ⟨rfl, hout ▸ hended, by simp [Tried.panicked], by simp [Tried.delivered], .refl _⟩

/-- the copy of the devices is gone through, to its end if no send panics -/
theorem goes_devices (c : Clients) (notification : PushNotification) (s : Batch) (devices : List DeviceToken)
    (successCount : ℕ) :
    ∃ s' l n, Goes c notification s s' l n ∧ s'.unread = s.unread ∧ (n.isSome = true → l.map Tried.device = devices) ∧
      c.sendToDevices notification successCount s devices = (n.map (successCount + ·), s') := by
  induction devices generalizing s successCount with
  | nil => exact ⟨s, [], some 0, .refl s, rfl, fun _ => rfl, rfl⟩
  | cons device devices ih =>
    obtain ⟨s', n, hfirst, hunread, hrest⟩ := goes_device c notification s device devices successCount
    cases n with
    | none => exact ⟨s', _, none, hfirst, hunread, by simp, hrest⟩
    | some k =>
      obtain ⟨s'', l, m, hgoes, hunread', hdevices, hrun⟩ := ih s' (successCount + k)
      refine ⟨s'', _, _, hfirst.trans hgoes, hunread'.trans hunread, ?_, ?_⟩
      · intro hm
        rw [Option.isSome_map] at hm
        rw [List.map_append, hdevices hm]
        rfl
      · rw [hrest, Option.elim_some, hrun, Option.map_map]
        simp only [Function.comp_def, Nat.add_assoc]

/-- a user: the devices are read, and gone through; a user whose devices cannot be read is noted -/
theorem goes_user (c : Clients) (notification : PushNotification) (s : Batch) (userId : Snowflake)
    (userIds : List Snowflake) (total : ℕ) :
    ∃ s' l n, Goes c notification s s' l n ∧
      ((s.store.getTokens userId).1 = none → s'.unread = s.unread ++ [userId] ∧ l = []) ∧
      (∀ devices, (s.store.getTokens userId).1 = some devices →
        s'.unread = s.unread ∧ (n.isSome = true → l.map Tried.device = devices)) ∧
      c.sendToUsersFrom notification total s (userId :: userIds) =
        n.elim (none, s') fun k => c.sendToUsersFrom notification (total + k) s' userIds := by
  have hread := shrinks_getTokens userId s.store
  rw [Clients.sendToUsersFrom, Clients.sendToUser]
  rcases hdevices : s.store.getTokens userId with ⟨_ | devices, store⟩
  · rw [hdevices] at hread
    have hgoes : Goes c notification s { s with store, unread := s.unread ++ [userId] } [] (some 0) :=
      { Goes.refl s with store := hread, tried := (List.append_nil _).symm }
    exact ⟨_, [], some 0, hgoes, fun _ => ⟨rfl, rfl⟩, by simp, rfl⟩
  · rw [hdevices] at hread
    have hgoes : Goes c notification s { s with store } [] (some 0) :=
      { Goes.refl s with store := hread, tried := (List.append_nil _).symm }
    cases devices with
    | nil => exact ⟨_, [], some 0, hgoes, by simp, by simp, rfl⟩
    | cons device devices =>
      obtain ⟨s', l, n, hl, hunread, hall, hrun⟩ :=
        goes_devices c notification { s with store } (device :: devices) 0
      have hwhole := hgoes.trans hl
      simp only [List.nil_append, Nat.zero_add, Option.map_id'] at hwhole
      refine ⟨s', l, n, hwhole, by simp, ?_, ?_⟩
      · rintro devices' ⟨⟩
        exact ⟨hunread, hall⟩
      · simp only [List.isEmpty_cons, Bool.false_eq_true, if_false, hrun, Nat.zero_add, Option.map_id']
        cases n <;> rfl

/-- what one user adds, for a device whose token is not found invalid -/
theorem user_count {userId : Snowflake} {d : DeviceToken} (howned : s.store.Owned)
    (hread : ∀ devices, (s.store.getTokens userId).1 = some devices → l.map Tried.device = devices)
    (hnone : (s.store.getTokens userId).1 = none → l = []) :
    (l.map Tried.device).count d =
      if d.userId = userId ∧ (s.store.getTokens userId).1 ≠ none then s.store.copies d else 0 := by
  rcases hdevices : (s.store.getTokens userId).1 with _ | devices
  · rw [hnone hdevices]
    simp
  · rw [hread devices hdevices, getTokens_count howned hdevices]
    simp

/-- the users that are left; of a device whose token stays valid, every copy is tried when its user is read -/
theorem goes_users (c : Clients) (notification : PushNotification) (s : Batch) (userIds : List Snowflake) (total : ℕ) :
    ∃ s' l n new, Goes c notification s s' l n ∧ s'.unread = s.unread ++ new ∧ (∀ u ∈ new, u ∈ userIds) ∧
      c.sendToUsersFrom notification total s userIds = (n.map (total + ·), s') ∧
        (n.isSome = true → userIds.Nodup → s.store.Owned → ∀ d : DeviceToken, d.token ∉ foundInvalid l →
          (l.map Tried.device).count d = if d.userId ∈ userIds ∧ d.userId ∉ new then s.store.copies d else 0) := by
  induction userIds generalizing s total with
  | nil => exact ⟨s, [], some 0, [], .refl s, (List.append_nil _).symm, by simp, rfl, by simp⟩
  | cons userId userIds ih =>
    obtain ⟨s', l, n, hfirst, hnone, hsome, hrest⟩ := goes_user c notification s userId userIds total
    obtain ⟨noted, hnoted, hread, hmem⟩ : ∃ noted, s'.unread = s.unread ++ noted ∧
        (noted = [userId] ↔ (s.store.getTokens userId).1 = none) ∧ (noted = [] ∨ noted = [userId]) := by
      rcases hdevices : (s.store.getTokens userId).1 with _ | devices
      · exact ⟨[userId], (hnone hdevices).1, by simp, .inr rfl⟩
      · exact ⟨[], by rw [(hsome devices hdevices).1, List.append_nil], by simp, .inl rfl⟩
    cases n with
    | none =>
      refine ⟨s', l, none, noted, hfirst, hnoted, ?_, hrest, by simp⟩
      rcases hmem with rfl | rfl <;> simp
    | some k =>
      obtain ⟨s'', l', m, new, hgoes, hunread, hnew, hrun, hcount⟩ := ih s' (total + k)
      refine ⟨s'', l ++ l', m.map (k + ·), noted ++ new, hfirst.trans hgoes, ?_, ?_, ?_, ?_⟩
      · rw [hunread, hnoted, List.append_assoc]
      · intro u hu
        rcases List.mem_append.mp hu with hold | hold
        · rcases hmem with rfl | rfl
          · cases hold
          · rw [List.mem_singleton.mp hold]
            exact List.mem_cons_self
        · exact List.mem_cons_of_mem _ (hnew u hold)
      · rw [hrest, Option.elim_some, hrun, Option.map_map]
        simp only [Function.comp_def, Nat.add_assoc]
      · intro hm hnodup howned d hd
        rw [Option.isSome_map] at hm
        rw [foundInvalid_append, List.mem_append, not_or] at hd
        obtain ⟨huser, hnodup⟩ := List.nodup_cons.mp hnodup
        rw [List.map_append, List.count_append, hcount hm hnodup (hfirst.store.owned howned) d hd.2,
          hfirst.store.copies hd.1, user_count howned (fun devices h => (hsome devices h).2 rfl) fun h => (hnone h).2]
        by_cases hdu : d.userId = userId
        · -- the user is not read again
          have hlater : d.userId ∉ new := fun h => huser (hdu ▸ hnew _ h)
          rcases hmem with rfl | rfl
          · have hsuccess : (s.store.getTokens userId).1 ≠ none := fun h => absurd (hread.2 h) (by simp)
            simp [hdu, huser, hdu ▸ hlater, hsuccess]
          · simp [hdu, huser, hread.1 rfl]
        · have hfree : d.userId ∉ noted := by
            rcases hmem with rfl | rfl
            · exact List.not_mem_nil
            · exact fun h => hdu (List.mem_singleton.mp h)
          simp [hdu, hfree]

/-- a whole batch, as a stretch -/
theorem goes_batch (c : Clients) (store : TokenStoreBackend) (userIds : List Snowflake)
    (notification : PushNotification) :
    let r := c.sendToUsers store userIds notification
    Goes c notification ⟨store, [], []⟩ r.2 r.2.tried r.1 ∧
      (r.1.isSome = true → userIds.Nodup → store.Owned → ∀ d : DeviceToken, d.token ∉ foundInvalid r.2.tried →
        (r.2.tried.map Tried.device).count d =
          if d.userId ∈ userIds ∧ d.userId ∉ r.2.unread then store.copies d else 0) := by
  obtain ⟨s, l, n, new, hgoes, hunread, -, hrun, hcount⟩ := goes_users c notification ⟨store, [], []⟩ userIds 0
  simp only [Nat.zero_add, Option.map_id'] at hrun
  unfold Clients.sendToUsers
  rw [hrun]
  obtain rfl : s.tried = l := hgoes.tried
  obtain rfl : s.unread = new := hunread
  exact ⟨hgoes, hcount⟩

end Goes

/-! ## Panics -/

/-- FCM says that the token is dead, or that it was delivered to, which is recorded; and it cannot be cut at its eighth
byte -/
def Clients.Cut (c : Clients) (attempt : ℕ) (device : DeviceToken) (notification : PushNotification) : Prop :=
  device.platform = .android ∧ c.fcm = true ∧ device.token ≠ "" ∧
    (FcmClient.Dead (c.told attempt notification) device.token ∨
      c.debug = true ∧ FcmClient.Delivered (c.told attempt notification)) ∧
    FcmClient.short device.token = none

theorem sendToDevice_eq_none_iff {c : Clients} {attempt : ℕ} {device : DeviceToken} {notification : PushNotification} :
    c.sendToDevice attempt device notification = none ↔ c.Cut attempt device notification := by
  unfold Clients.sendToDevice Clients.Cut
  cases hconfigured : c.configured device.platform with
  | false =>
    simp only [Bool.false_eq_true, if_false, reduceCtorEq, false_iff, not_and]
    intro hplatform hfcm
    rw [hplatform, Clients.configured, hfcm] at hconfigured
    cases hconfigured
  | true =>
    simp only [if_true]
    cases hplatform : device.platform with
    | ios =>
      have hsend := ApnsClient.send_isSome c.parse (c.told attempt notification) device.token
      simp only [reduceCtorEq, false_and, iff_false]
      exact Option.isSome_iff_ne_none.mp hsend
    | android =>
      rw [hplatform, Clients.configured] at hconfigured
      simp only [Platform.send, FcmClient.send_eq_none_iff, hconfigured, true_and]

/-- **When a batch panics.** It does exactly if it comes to a device with such a token. -/
theorem panics_iff (c : Clients) (store : TokenStoreBackend) (userIds : List Snowflake)
    (notification : PushNotification) :
    let r := c.sendToUsers store userIds notification
    r.1 = none ↔ ∃ i a, r.2.tried[i]? = some a ∧ c.Cut i a.device a.notification := by
  intro r
  obtain ⟨hgoes, -⟩ := goes_batch c store userIds notification
  rw [hgoes.panic, List.any_eq_true]
  have hended : ∀ i a, r.2.tried[i]? = some a → (a.panicked = true ↔ c.Cut i a.device a.notification) := by
    intro i a ha
    obtain ⟨hnotification, hsend⟩ := hgoes.ended i a ha
    rw [List.length_nil, Nat.zero_add] at hsend
    rw [Tried.panicked, hsend, Option.isNone_iff_eq_none, sendToDevice_eq_none_iff, hnotification]
  constructor
  · rintro ⟨a, ha, hpanic⟩
    obtain ⟨i, hi⟩ := List.mem_iff_getElem?.mp ha
    exact ⟨i, a, hi, (hended i a hi).mp hpanic⟩
  · rintro ⟨i, a, hi, hcut⟩
    exact ⟨a, List.mem_of_getElem? hi, (hended i a hi).mpr hcut⟩

/-! ## Over the vectors -/

/-- the service whose clients answer as these do where they do not panic -/
def Clients.service (c : Clients) : PushService where
  apns :=
    if c.apns then
      some fun n token notification => (ApnsClient.send c.parse (c.told n notification) token).getD (.ok ())
    else none
  fcm :=
    if c.fcm then
      some fun n token notification => (FcmClient.send c.debug c.parse (c.told n notification) token).getD (.ok ())
    else none

/-- the same store and the same calls -/
structure Same (notification : PushNotification) (s : Batch) (s' : Sending) : Prop where
  store : s.store = .inMemory s'.tokens
  tried : s.tried = s'.attempts.map fun a => ⟨a.device, notification, some a.outcome⟩

section Service

variable {c : Clients} {notification : PushNotification} {s : Batch} {s' : Sending}

theorem sendToDevice_service {attempt : ℕ} {device : DeviceToken} {outcome : Except PushError Unit}
    (h : c.sendToDevice attempt device notification = some outcome) :
    c.service.sendToDevice attempt device notification = outcome := by
  unfold Clients.sendToDevice at h
  unfold PushService.sendToDevice
  cases hplatform : device.platform with
  | ios =>
    cases hconfigured : c.apns with
    | false => simpa [hplatform, Clients.configured, Clients.service, hconfigured] using h
    | true =>
      simp only [hplatform, Clients.configured, hconfigured, if_true, Platform.send] at h
      simp only [Clients.service, hconfigured, if_true, h, Option.getD_some]
  | android =>
    cases hconfigured : c.fcm with
    | false => simpa [hplatform, Clients.configured, Clients.service, hconfigured] using h
    | true =>
      simp only [hplatform, Clients.configured, hconfigured, if_true, Platform.send] at h
      simp only [Clients.service, hconfigured, if_true, h, Option.getD_some]

theorem sendToDevices_service (hsame : Same notification s s') {devices : List DeviceToken} {successCount n : ℕ} {t : Batch}
    (h : c.sendToDevices notification successCount s devices = (some n, t)) :
    ∃ t', c.service.sendToDevices notification successCount s' devices = (n, t') ∧ Same notification t t' := by
  induction devices generalizing s s' successCount with
  | nil =>
    obtain ⟨hn, rfl⟩ := Prod.mk.inj h
    obtain rfl := Option.some.inj hn
    exact ⟨s', rfl, hsame⟩
  | cons device devices ih =>
    have hlength : s.tried.length = s'.attempts.length := by rw [hsame.tried, List.length_map]
    rw [Clients.sendToDevices] at h
    rw [PushService.sendToDevices]
    rcases hout : c.sendToDevice s.tried.length device notification with _ | outcome
    · rw [hout] at h
      cases h
    · rw [hout] at h
      have hservice := sendToDevice_service hout
      rw [hlength] at hservice
      have hnext : Same notification { s with tried := s.tried ++ [⟨device, notification, some outcome⟩] }
          { s' with attempts := s'.attempts ++ [⟨device, outcome⟩] } := by
        refine ⟨hsame.store, ?_⟩
        rw [List.map_append, hsame.tried]
        rfl
      rw [hservice]
      rcases outcome with e | ⟨⟩
      · cases e with
        | invalidToken message =>
          have hstore : s.store.removeInvalidToken device.token =
              .inMemory (s'.tokens.removeInvalidToken device.token) := by
            rw [hsame.store]
            rfl
          have hremoved : Same notification ⟨s.store.removeInvalidToken device.token, _, s.unread⟩
            ⟨s'.tokens.removeInvalidToken device.token, _⟩ := ⟨hstore, hnext.tried⟩
          exact ih hremoved h
        | _ => exact ih hnext h
      · exact ih hnext h

theorem sendToUsersFrom_service (hsame : Same notification s s') {userIds : List Snowflake} {total n : ℕ} {t : Batch}
    (h : c.sendToUsersFrom notification total s userIds = (some n, t)) :
    ∃ t', c.service.sendToUsersFrom notification total s' userIds = (n, t') ∧ Same notification t t' := by
  induction userIds generalizing s s' total with
  | nil =>
    obtain ⟨hn, rfl⟩ := Prod.mk.inj h
    obtain rfl := Option.some.inj hn
    exact ⟨s', rfl, hsame⟩
  | cons userId userIds ih =>
    have hread : s.store.getTokens userId = (some (s'.tokens.getTokens userId), s.store) := by
      rw [hsame.store]
      rfl
    rw [Clients.sendToUsersFrom, Clients.sendToUser, hread] at h
    rw [PushService.sendToUsersFrom, PushService.sendToUser]
    cases hdevices : s'.tokens.getTokens userId with
    | nil =>
      simp only [hdevices, List.isEmpty_nil, if_true] at h
      exact ih hsame h
    | cons device devices =>
      simp only [hdevices, List.isEmpty_cons, Bool.false_eq_true, if_false] at h
      rcases hrun : c.sendToDevices notification 0 s (device :: devices) with ⟨_ | k, t₁⟩
      · rw [hrun] at h
        cases h
      · obtain ⟨t₁', hservice, hsame'⟩ := sendToDevices_service hsame hrun
        rw [hrun] at h
        simp only [List.isEmpty_cons, Bool.false_eq_true, if_false, hservice]
        exact ih hsame' h

end Service

/-- **A batch over the vectors in which no send panics is one of `PushService`.** -/
theorem sendToUsers_service (c : Clients) (tokens : DeviceTokenStore) (userIds : List Snowflake)
    (notification : PushNotification) (n : ℕ) (t : Batch)
    (h : c.sendToUsers (.inMemory tokens) userIds notification = (some n, t)) :
    ∃ t', c.service.sendToUsers tokens userIds notification = (n, t') ∧ Same notification t t' :=
  sendToUsersFrom_service ⟨rfl, rfl⟩ h

end Lumiere.Push
