/-
Push notifications for many users (`send_to_user` and `send_to_users` in `lumiere-push/src/lib.rs`). For each user the
service goes through a copy of the devices that the store holds when the user is reached; a token that is found invalid
leaves the store, for all users, while the copy is still gone through.

- `Client`: APNs and FCM, which answer every request as they like.
- `Sent`: what a stretch of attempts does, composed by `Sent.trans` (`sent_attempt`, `sent_devices`, `sent_user`).
- `Attempted`: what a batch is for, the attempts in their order.
- `batch_exact`: every batch makes exactly these attempts, counts the ones that succeeded and takes exactly the tokens
  that were found invalid out of the store.
-/
import Lumiere.Push.TokenStores

namespace Lumiere.Push

open Lumiere.Core Lumiere.Models

structure PushNotification where
  title : String
  body : String
  data : List (String × String)
  badge : Option ℕ
  sound : Option String
  threadId : Option String
deriving DecidableEq, Repr

/-- what APNs or FCM answers to a token, by the number of the attempt -/
abbrev Client := ℕ → String → PushNotification → Except PushError Unit

structure PushService where
  apns : Option Client
  fcm : Option Client

/-- one call of `send_to_device` -/
structure Attempt where
  device : DeviceToken
  outcome : Except PushError Unit
deriving DecidableEq

/-- the store, and the attempts so far -/
structure Sending where
  tokens : DeviceTokenStore
  attempts : List Attempt

namespace PushService

def sendToDevice (p : PushService) (attempt : ℕ) (device : DeviceToken) (notification : PushNotification) :
    Except PushError Unit :=
  match device.platform with
  | .ios =>
    match p.apns with
    | none => .error (.platformNotConfigured .ios)
    | some apns => apns attempt device.token notification
  | .android =>
    match p.fcm with
    | none => .error (.platformNotConfigured .android)
    | some fcm => fcm attempt device.token notification

/-- the loop over the devices of a user -/
def sendToDevices (p : PushService) (notification : PushNotification) :
    ℕ → Sending → List DeviceToken → ℕ × Sending
  | successCount, s, [] => (successCount, s)
  | successCount, s, device :: devices =>
    let outcome := p.sendToDevice s.attempts.length device notification
    let attempts := s.attempts ++ [⟨device, outcome⟩]
    match outcome with
    | .ok () => p.sendToDevices notification (successCount + 1) ⟨s.tokens, attempts⟩ devices
    | .error (.invalidToken _) =>
      p.sendToDevices notification successCount ⟨s.tokens.removeInvalidToken device.token, attempts⟩ devices
    | .error _ => p.sendToDevices notification successCount ⟨s.tokens, attempts⟩ devices

def sendToUser (p : PushService) (notification : PushNotification) (s : Sending) (userId : Snowflake) :
    Except PushError ℕ × Sending :=
  let devices := s.tokens.getTokens userId
  if devices.isEmpty then (.error (.tokenNotFound userId), s)
  else
    let (successCount, s) := p.sendToDevices notification 0 s devices
    (.ok successCount, s)

/-- the loop over the users -/
def sendToUsersFrom (p : PushService) (notification : PushNotification) : ℕ → Sending → List Snowflake → ℕ × Sending
  | total, s, [] => (total, s)
  | total, s, userId :: userIds =>
    match p.sendToUser notification s userId with
    | (.ok n, s) => p.sendToUsersFrom notification (total + n) s userIds
    | (.error _, s) => p.sendToUsersFrom notification total s userIds

def sendToUsers (p : PushService) (tokens : DeviceTokenStore) (userIds : List Snowflake)
    (notification : PushNotification) : ℕ × Sending :=
  p.sendToUsersFrom notification 0 ⟨tokens, []⟩ userIds

end PushService

/-! ## What a batch is for -/

def Attempt.delivered (a : Attempt) : Bool :=
  match a.outcome with
  | .ok () => true
  | .error _ => false

def Attempt.invalid (a : Attempt) : Bool :=
  match a.outcome with
  | .error (.invalidToken _) => true
  | _ => false

/-- the tokens that some attempt found invalid -/
def invalidTokens (attempts : List Attempt) : List String :=
  (attempts.filter Attempt.invalid).map fun a => a.device.token

/-- the store without these tokens, for all users -/
def DeviceTokenStore.without (s : DeviceTokenStore) (tokens : List String) : DeviceTokenStore :=
  ⟨fun userId => (s.tokens userId).map fun entries => entries.filter fun d => d.token ∉ tokens⟩

/-- the attempts for these users: each time that a user is reached, the user's devices in their order, less the tokens
that were found invalid before -/
inductive Attempted (tokens : DeviceTokenStore) : List Snowflake → List Attempt → Prop where
  | nil : Attempted tokens [] []
  | snoc {userIds : List Snowflake} {before here : List Attempt} {userId : Snowflake} :
      Attempted tokens userIds before →
      here.map Attempt.device = (tokens.getTokens userId).filter (fun d => d.token ∉ invalidTokens before) →
      Attempted tokens (userIds ++ [userId]) (before ++ here)

variable {p : PushService} {notification : PushNotification} {tokens : DeviceTokenStore} {s s' s'' : Sending}
  {l l' : List Attempt}

theorem invalidTokens_append (l l' : List Attempt) : invalidTokens (l ++ l') = invalidTokens l ++ invalidTokens l' := by
  simp only [invalidTokens, List.filter_append, List.map_append]

theorem without_nil (s : DeviceTokenStore) : s.without [] = s := by
  simp [DeviceTokenStore.without]

theorem without_append (s : DeviceTokenStore) (x y : List String) : s.without (x ++ y) = (s.without x).without y := by
  simp only [DeviceTokenStore.without, Option.map_map, DeviceTokenStore.mk.injEq]
  funext userId
  congr 1
  funext entries
  rw [Function.comp_apply, List.filter_filter]
  refine List.filter_congr fun d _ => ?_
  simp only [List.mem_append, not_or, Bool.decide_and, Bool.and_comm]

theorem without_singleton (s : DeviceTokenStore) (token : String) : s.without [token] = s.removeInvalidToken token := by
  simp only [DeviceTokenStore.without, DeviceTokenStore.removeInvalidToken, List.mem_singleton]

theorem getTokens_without (s : DeviceTokenStore) (x : List String) (userId : Snowflake) :
    (s.without x).getTokens userId = (s.getTokens userId).filter fun d => d.token ∉ x := by
  simp only [DeviceTokenStore.getTokens, DeviceTokenStore.without]
  rcases s.tokens userId with _ | entries <;> rfl

/-! ## A stretch of attempts -/

/-- from one state to another by these attempts, of which `n` succeeded -/
structure Sent (p : PushService) (notification : PushNotification) (s s' : Sending) (l : List Attempt) (n : ℕ) :
    Prop where
  attempts : s'.attempts = s.attempts ++ l
  outcomes : ∀ i a, l[i]? = some a → a.outcome = p.sendToDevice (s.attempts.length + i) a.device notification
  count : n = l.countP Attempt.delivered
  tokens : s'.tokens = s.tokens.without (invalidTokens l)

theorem Sent.refl (s : Sending) : Sent p notification s s [] 0 :=
  ⟨(List.append_nil _).symm, fun _ _ h => by simp at h, rfl, (without_nil _).symm⟩

theorem Sent.trans {n n' : ℕ} (h : Sent p notification s s' l n) (h' : Sent p notification s' s'' l' n') :
    Sent p notification s s'' (l ++ l') (n + n') where
  attempts := by rw [h'.attempts, h.attempts, List.append_assoc]
  outcomes i a ha := by
    rcases lt_or_ge i l.length with hi | hi
    · rw [List.getElem?_append_left hi] at ha
      exact h.outcomes i a ha
    · rw [List.getElem?_append_right hi] at ha
      rw [h'.outcomes _ a ha, h.attempts, List.length_append, Nat.add_assoc, Nat.add_sub_cancel' hi]
  count := by rw [List.countP_append, h.count, h'.count]
  tokens := by rw [h'.tokens, h.tokens, invalidTokens_append, without_append]

/-- **What one attempt does.** It is counted if it succeeds, and takes its token out of the store if that is invalid. -/
theorem sent_attempt (p : PushService) (notification : PushNotification) (s : Sending) (device : DeviceToken)
    (devices : List DeviceToken) (successCount : ℕ) :
    ∃ s' n, Sent p notification s s' [⟨device, p.sendToDevice s.attempts.length device notification⟩] n ∧
      p.sendToDevices notification successCount s (device :: devices) =
        p.sendToDevices notification (successCount + n) s' devices := by
  have houtcomes : ∀ i a, [(⟨device, p.sendToDevice s.attempts.length device notification⟩ : Attempt)][i]? = some a →
      a.outcome = p.sendToDevice (s.attempts.length + i) a.device notification := by
    intro i a ha
    cases i with
    | zero =>
      obtain rfl := Option.some.inj ha
      rfl
    | succ i => cases ha
  rw [PushService.sendToDevices]
  rcases hout : p.sendToDevice s.attempts.length device notification with e | ⟨⟩
  · cases e with
    | invalidToken message =>
      refine ⟨⟨s.tokens.removeInvalidToken device.token, _⟩, 0, ⟨rfl, hout ▸ houtcomes, rfl, ?_⟩, rfl⟩
      exact (without_singleton _ _).symm
    | _ => exact ⟨⟨s.tokens, _⟩, 0, ⟨rfl, hout ▸ houtcomes, rfl, (without_nil _).symm⟩, rfl⟩
  · exact ⟨⟨s.tokens, _⟩, 1, ⟨rfl, hout ▸ houtcomes, rfl, (without_nil _).symm⟩, rfl⟩

theorem sent_devices (p : PushService) (notification : PushNotification) (s : Sending) (devices : List DeviceToken)
    (successCount : ℕ) :
    ∃ s' l n, Sent p notification s s' l n ∧ l.map Attempt.device = devices ∧
      p.sendToDevices notification successCount s devices = (successCount + n, s') := by
  induction devices generalizing s successCount with
  | nil => exact ⟨s, [], 0, .refl s, rfl, rfl⟩
  | cons device devices ih =>
    obtain ⟨s', n, hfirst, hrest⟩ := sent_attempt p notification s device devices successCount
    obtain ⟨s'', l, m, hsent, hdevices, hrun⟩ := ih s' (successCount + n)
    refine ⟨s'', _, _, hfirst.trans hsent, ?_, ?_⟩
    · rw [List.map_append, hdevices]
      rfl
    · rw [hrest, hrun, Nat.add_assoc]

/-- a user: the copy of the devices is gone through to its end; a user without devices is no attempt -/
theorem sent_user (p : PushService) (notification : PushNotification) (s : Sending) (userId : Snowflake)
    (userIds : List Snowflake) (total : ℕ) :
    ∃ s' l n, Sent p notification s s' l n ∧ l.map Attempt.device = s.tokens.getTokens userId ∧
      p.sendToUsersFrom notification total s (userId :: userIds) =
        p.sendToUsersFrom notification (total + n) s' userIds := by
  rw [PushService.sendToUsersFrom, PushService.sendToUser]
  rcases hdevices : s.tokens.getTokens userId with _ | ⟨device, devices⟩
  · exact ⟨s, [], 0, .refl s, rfl, rfl⟩
  · obtain ⟨s', l, n, hsent, hl, hrun⟩ := sent_devices p notification s (device :: devices) 0
    refine ⟨s', l, n, hsent, hl, ?_⟩
    rw [List.isEmpty_cons, if_neg Bool.false_ne_true, hrun, Nat.zero_add]

/-- the users that are left, after a batch for others -/
theorem sent_users (p : PushService) (notification : PushNotification) (userIds done : List Snowflake)
    (before : List Attempt) (total : ℕ) (s : Sending) (hsent : Sent p notification ⟨tokens, []⟩ s before total)
    (hbefore : Attempted tokens done before) :
    ∃ s' l n, Sent p notification ⟨tokens, []⟩ s' l n ∧ Attempted tokens (done ++ userIds) l ∧
      p.sendToUsersFrom notification total s userIds = (n, s') := by
  induction userIds generalizing done before total s with
  | nil => exact ⟨s, before, total, hsent, by rwa [List.append_nil], rfl⟩
  | cons userId userIds ih =>
    obtain ⟨s', here, n, hhere, hdevices, hrun⟩ := sent_user p notification s userId userIds total
    rw [hsent.tokens, getTokens_without] at hdevices
    obtain ⟨s'', l, m, hl, hattempted, hrest⟩ :=
      ih (done ++ [userId]) (before ++ here) (total + n) s' (hsent.trans hhere) (hbefore.snoc hdevices)
    refine ⟨s'', l, m, hl, ?_, hrun.trans hrest⟩
    rwa [List.append_assoc] at hattempted

/-- a device whose token stays valid is attempted each time that a user who has it is reached -/
theorem Attempted.count {userIds : List Snowflake} (h : Attempted tokens userIds l) {d : DeviceToken}
    (hvalid : d.token ∉ invalidTokens l) :
    (l.map Attempt.device).count d = (userIds.map fun userId => (tokens.getTokens userId).count d).sum := by
  induction h with
  | nil => rfl
  | @snoc userIds before here userId _ hhere ih =>
    rw [invalidTokens_append, List.mem_append, not_or] at hvalid
    rw [List.map_append, List.count_append, ih hvalid.1, hhere, List.count_filter (by simpa using hvalid.1),
      List.map_append, List.sum_append]
    rfl

/-- a whole batch, as a stretch -/
theorem sent_batch (p : PushService) (tokens : DeviceTokenStore) (userIds : List Snowflake)
    (notification : PushNotification) :
    let s := (p.sendToUsers tokens userIds notification).2
    (∃ n, Sent p notification ⟨tokens, []⟩ s s.attempts n) ∧ Attempted tokens userIds s.attempts := by
  obtain ⟨s, l, n, hsent, hattempted, hrun⟩ :=
    sent_users p notification userIds [] [] 0 ⟨tokens, []⟩ (.refl _) .nil
  unfold PushService.sendToUsers
  rw [hrun]
  obtain rfl : s.attempts = l := hsent.attempts
  exact ⟨⟨n, hsent⟩, hattempted⟩

/-- one token of two users, and a second token of the second -/
def shared : DeviceTokenStore :=
  ((DeviceTokenStore.new.register (phone 7 "old" .ios)).register (phone 8 "old" .ios)).register (phone 8 "new" .android)

/-- APNs knows no token any more, FCM takes all -/
def halfDead : PushService := ⟨some fun _ token _ => .error (.invalidToken token), some fun _ _ _ => .ok ()⟩

/-- the first user's device takes the token from the second, who is reached under the other one only -/
example : ((halfDead.sendToUsers shared [.ofI64 7, .ofI64 8] ⟨"title", "body", [], none, none, none⟩).2.attempts.map
    fun a => a.device.token) = ["old", "new"] := by
  decide

end Lumiere.Push
