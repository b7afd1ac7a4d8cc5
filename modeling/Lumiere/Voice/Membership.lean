/-
Voice states in Redis (`lumiere-voice/src/lib.rs`). The key `voice_state:{server_id}:{user_id}` holds the state of a
user in a server, the set `voice_channel_members:{channel_id}` lists the users in a channel. States are stored as they are,
without the detour through JSON, and no key expires.

- `update_cases`: an update sets a state of the channel that the record names.
- `getChannelMembers_run`: a set is answered as the ids of the users in it.
- `index_iff`: the sets list exactly the users whose records point to the channel, all along a run of calls, exactly if
  nobody who has a record in a server is set to another channel of it. `set_voice_state` never takes a user out of the
  channel that it leaves.
- `moved_on`: a user who changes channels is a member of both.
-/
import Lumiere.Core.Prog
import Lumiere.Core.Run
import Lumiere.Models.Snowflake

namespace Lumiere.Voice

open Lumiere.Core Lumiere.Core.Prog Lumiere.Models

structure VoiceState where
  userId : Snowflake
  channelId : Snowflake
  serverId : Snowflake
  sessionId : String
  selfMute : Bool
  selfDeaf : Bool
  serverMute : Bool
  serverDeaf : Bool
  suppress : Bool
  selfVideo : Bool
  selfStream : Bool
  joinedAt : ℤ
deriving DecidableEq, Repr

def VoiceState.new (userId channelId serverId : Snowflake) (sessionId : String) (now : ℤ) : VoiceState :=
  { userId, channelId, serverId, sessionId, selfMute := false, selfDeaf := false, serverMute := false,
    serverDeaf := false, suppress := false, selfVideo := false, selfStream := false, joinedAt := now }

inductive VoiceError where
  | stateNotFound (userId serverId : Snowflake)
deriving DecidableEq, Repr

structure VoiceStateUpdate where
  selfMute : Option Bool
  selfDeaf : Option Bool
  selfVideo : Option Bool
  selfStream : Option Bool
  serverMute : Option Bool
  serverDeaf : Option Bool
  suppress : Option Bool
deriving DecidableEq, Repr

/-! ## Redis -/

structure Redis where
  /-- by server and user -/
  voiceState : Snowflake → Snowflake → Option VoiceState
  /-- the ids as texts -/
  channelMembers : Snowflake → List String

def Redis.empty : Redis := ⟨fun _ _ => none, fun _ => []⟩

inductive Command where
  | setEx (serverId userId : Snowflake) (state : VoiceState) (seconds : ℕ)
  | del (serverId userId : Snowflake)
  | sadd (channelId : Snowflake) (member : String)
  | srem (channelId : Snowflake) (member : String)
deriving DecidableEq, Repr

def Command.exec : Command → Redis → Except VoiceError (ℕ × Redis)
  | .setEx serverId userId state _, r => .ok (1, { r with
      voiceState :=
        Function.update r.voiceState serverId (Function.update (r.voiceState serverId) userId (some state)) })
  | .del serverId userId, r => .ok (if (r.voiceState serverId userId).isSome then 1 else 0, { r with
      voiceState := Function.update r.voiceState serverId (Function.update (r.voiceState serverId) userId none) })
  | .sadd channelId member, r =>
    if member ∈ r.channelMembers channelId then .ok (0, r)
    else .ok (1, { r with
      channelMembers := Function.update r.channelMembers channelId (r.channelMembers channelId ++ [member]) })
  | .srem channelId member, r => .ok ((r.channelMembers channelId).count member, { r with
      channelMembers :=
        Function.update r.channelMembers channelId ((r.channelMembers channelId).filter (· ≠ member)) })

abbrev Call := Prog Redis Command VoiceError

/-! ## VoiceService -/

/-- `user_id.to_string()` -/
def memberOf (userId : Snowflake) : String := toString userId.value

def setVoiceState (state : VoiceState) : Call Unit := do
  execute (.setEx state.serverId state.userId state 86400)
  execute (.sadd state.channelId (memberOf state.userId))

def getVoiceState (serverId userId : Snowflake) : Call (Option VoiceState) :=
  select fun r => r.voiceState serverId userId

/-- being deaf implies muted -/
def VoiceStateUpdate.apply (update : VoiceStateUpdate) (state : VoiceState) : VoiceState :=
  let selfMute := update.selfMute.getD state.selfMute
  { state with
    selfMute := if update.selfDeaf = some true then true else selfMute
    selfDeaf := update.selfDeaf.getD state.selfDeaf
    selfVideo := update.selfVideo.getD state.selfVideo
    selfStream := update.selfStream.getD state.selfStream
    serverMute := update.serverMute.getD state.serverMute
    serverDeaf := update.serverDeaf.getD state.serverDeaf
    suppress := update.suppress.getD state.suppress }

def updateVoiceState (serverId userId : Snowflake) (update : VoiceStateUpdate) : Call VoiceState := do
  let stored ← getVoiceState serverId userId
  let state ← orFail (.stateNotFound userId serverId) stored
  setVoiceState (update.apply state)
  pure (update.apply state)

def removeVoiceState (serverId userId : Snowflake) : Call (Option VoiceState) := do
  let state ← getVoiceState serverId userId
  execute (.del serverId userId)
  state.forM fun s => execute (.srem s.channelId (memberOf userId))
  pure state

def getChannelMembers (channelId : Snowflake) : Call (List Snowflake) := do
  let memberIds ← select fun r => r.channelMembers channelId
  pure (memberIds.filterMap Snowflake.fromStr)

/-! ## Calls one at a time -/

inductive VoiceOp where
  | set (state : VoiceState)
  | update (serverId userId : Snowflake) (update : VoiceStateUpdate)
  | remove (serverId userId : Snowflake)
deriving DecidableEq, Repr

def voiceStep (r : Redis) : VoiceOp → Redis
  | .set state => ((setVoiceState state).run Command.exec r).2
  | .update serverId userId update => ((updateVoiceState serverId userId update).run Command.exec r).2
  | .remove serverId userId => ((removeVoiceState serverId userId).run Command.exec r).2

/-- the record of the user in the server of the channel exists and points to the channel -/
def JoinedTo (serverOf : Snowflake → Snowflake) (r : Redis) (userId channelId : Snowflake) : Prop :=
  ∃ state ∈ r.voiceState (serverOf channelId) userId, state.channelId = channelId

/-- the sets and the records agree -/
def Indexed (serverOf : Snowflake → Snowflake) (r : Redis) : Prop :=
  ∀ userId channelId, memberOf userId ∈ r.channelMembers channelId ↔ JoinedTo serverOf r userId channelId

/-- a state that is set names the server of its channel -/
def VoiceOp.InServer (serverOf : Snowflake → Snowflake) : VoiceOp → Prop
  | .set state => state.serverId = serverOf state.channelId
  | _ => True

instance (serverOf : Snowflake → Snowflake) : ∀ o, Decidable (VoiceOp.InServer serverOf o)
  | .set state => inferInstanceAs (Decidable (state.serverId = serverOf state.channelId))
  | .update .. => isTrue trivial
  | .remove .. => isTrue trivial

/-- who has a record in the server is set to the channel that the record names -/
def Stays (r : Redis) : VoiceOp → Prop
  | .set state => ∀ old ∈ r.voiceState state.serverId state.userId, old.channelId = state.channelId
  | _ => True

instance (r : Redis) : ∀ o, Decidable (Stays r o)
  | .set state => inferInstanceAs (Decidable (∀ old ∈ r.voiceState state.serverId state.userId, _))
  | .update .. => isTrue trivial
  | .remove .. => isTrue trivial

/-! ## What a call does -/

variable {r : Redis} {serverOf : Snowflake → Snowflake} {u c : Snowflake} {m : String}

theorem update_twice (f : Snowflake → Snowflake → Option VoiceState) (s u s' u' : Snowflake) (x : Option VoiceState) :
    Function.update f s (Function.update (f s) u x) s' u' = if s' = s ∧ u' = u then x else f s' u' := by
  by_cases hs : s' = s
  · subst hs
    rw [Function.update_self, Function.update_apply]
    simp
  · rw [Function.update_of_ne hs, if_neg fun h => hs h.1]

theorem voiceState_set (state : VoiceState) (s u : Snowflake) : (voiceStep r (.set state)).voiceState s u =
    if s = state.serverId ∧ u = state.userId then some state else r.voiceState s u := by
  rw [← update_twice, voiceStep, setVoiceState, run_bind]
  simp only [execute, run_exec, Command.exec, run_ret]
  split_ifs <;> rfl

theorem mem_members_set (state : VoiceState) : m ∈ (voiceStep r (.set state)).channelMembers c ↔
    m ∈ r.channelMembers c ∨ c = state.channelId ∧ m = memberOf state.userId := by
  rw [voiceStep, setVoiceState, run_bind]
  simp only [execute, run_exec, Command.exec, run_ret]
  by_cases hc : c = state.channelId
  · subst hc
    split_ifs with h
    · simp only [true_and]
      refine (or_iff_left_of_imp ?_).symm
      rintro rfl
      exact h
    · simp [Function.update_self]
  · split_ifs <;> simp [hc, Function.update_of_ne]

theorem voiceStep_update (serverId userId : Snowflake) (update : VoiceStateUpdate) :
    voiceStep r (.update serverId userId update) =
      (r.voiceState serverId userId).elim r fun state => voiceStep r (.set (update.apply state)) := by
  rw [voiceStep, updateVoiceState, getVoiceState, run_bind_of_ok (run_select _)]
  rcases r.voiceState serverId userId with _ | state
  · rfl
  · rw [run_bind_of_ok (run_orFail_some _ _), run_bind, Option.elim_some, voiceStep]
    rcases (setVoiceState (update.apply state)).run Command.exec r with ⟨e | x, r'⟩ <;> rfl

theorem voiceState_remove (serverId userId s u : Snowflake) :
    (voiceStep r (.remove serverId userId)).voiceState s u =
      if s = serverId ∧ u = userId then none else r.voiceState s u := by
  rw [← update_twice, voiceStep, removeVoiceState, getVoiceState, run_bind_of_ok (run_select _), run_bind]
  rcases r.voiceState serverId userId with _ | state <;> rfl

theorem mem_members_remove (serverId userId : Snowflake) :
    m ∈ (voiceStep r (.remove serverId userId)).channelMembers c ↔ m ∈ r.channelMembers c ∧
      ¬ ∃ state ∈ r.voiceState serverId userId, c = state.channelId ∧ m = memberOf userId := by
  rw [voiceStep, removeVoiceState, getVoiceState, run_bind_of_ok (run_select _), run_bind]
  rcases hstate : r.voiceState serverId userId with _ | state
  · simp only [Option.mem_def, reduceCtorEq, false_and, exists_false, not_false_eq_true, and_true]
    exact Iff.rfl
  · simp only [Option.mem_def, Option.some.injEq, exists_eq_left']
    show m ∈ Function.update r.channelMembers state.channelId _ c ↔ _
    rw [Function.update_apply]
    split_ifs with hc
    · simp [hc]
    · simp [hc]

/-! ## Records and channels -/

/-- a record is filed under its server and its user, and names the server of its channel -/
def Placed (serverOf : Snowflake → Snowflake) (r : Redis) : Prop :=
  ∀ s u, ∀ state ∈ r.voiceState s u, state.userId = u ∧ state.serverId = s ∧ serverOf state.channelId = s

theorem placed_set {state : VoiceState} (hserver : (VoiceOp.set state).InServer serverOf) (h : Placed serverOf r) :
    Placed serverOf (voiceStep r (.set state)) := by
  intro s u st hst
  rw [voiceState_set] at hst
  split_ifs at hst with hkey
  · obtain rfl : state = st := Option.some.inj hst
    exact ⟨hkey.2.symm, hkey.1.symm, hserver.symm.trans hkey.1.symm⟩
  · exact h s u st hst

theorem placed_remove (serverId userId : Snowflake) (h : Placed serverOf r) :
    Placed serverOf (voiceStep r (.remove serverId userId)) := by
  intro s u st hst
  rw [voiceState_remove] at hst
  split_ifs at hst with hkey
  · exact nomatch hst
  · exact h s u st hst

/-- an update sets a state of the channel that the record names -/
theorem update_cases (h : Placed serverOf r) (serverId userId : Snowflake) (update : VoiceStateUpdate) :
    voiceStep r (.update serverId userId update) = r ∨ ∃ state, (VoiceOp.set state).InServer serverOf ∧
      Stays r (.set state) ∧ voiceStep r (.update serverId userId update) = voiceStep r (.set state) := by
  rw [voiceStep_update]
  rcases hst : r.voiceState serverId userId with _ | st
  · exact .inl rfl
  · obtain ⟨rfl, rfl, hserver⟩ := h serverId userId st hst
    refine .inr ⟨update.apply st, hserver.symm, fun old hold => ?_, rfl⟩
    obtain rfl : st = old := Option.some.inj (hst.symm.trans hold)
    rfl

theorem placed_step (o : VoiceOp) (ho : o.InServer serverOf) (h : Placed serverOf r) :
    Placed serverOf (voiceStep r o) := by
  cases o with
  | set state => exact placed_set ho h
  | update serverId userId update =>
    obtain heq | ⟨state, hserver, -, heq⟩ := update_cases h serverId userId update
    · rwa [heq]
    · rw [heq]
      exact placed_set hserver h
  | remove serverId userId => exact placed_remove serverId userId h

theorem joinedTo_set {state : VoiceState} : JoinedTo serverOf (voiceStep r (.set state)) u c ↔
    if serverOf c = state.serverId ∧ u = state.userId then state.channelId = c else JoinedTo serverOf r u c := by
  unfold JoinedTo
  rw [voiceState_set]
  split_ifs <;> simp

/-- the user is added to the channel; the sets still agree if this is where the record pointed before -/
theorem indexed_set {state : VoiceState} (hserver : (VoiceOp.set state).InServer serverOf) (hplaced : Placed serverOf r)
    (h : Indexed serverOf r) : Indexed serverOf (voiceStep r (.set state)) ↔ Stays r (.set state) := by
  constructor
  · intro hnew old hold
    obtain ⟨-, -, hof⟩ := hplaced _ _ old hold
    have hjoined : JoinedTo serverOf r state.userId old.channelId := ⟨old, by rwa [hof], rfl⟩
    have hmember := mem_members_set (r := r) state |>.2 (.inl ((h _ _).2 hjoined))
    have hpoints := joinedTo_set.1 ((hnew _ _).1 hmember)
    rw [if_pos ⟨hof, rfl⟩] at hpoints
    exact hpoints.symm
  · intro hstays u c
    rw [mem_members_set, joinedTo_set, h, memberOf, memberOf, toString_value_inj]
    split_ifs with hkey
    · obtain ⟨hof, rfl⟩ := hkey
      refine ⟨?_, fun hc => .inr ⟨hc.symm, rfl⟩⟩
      rintro (⟨old, hold, rfl⟩ | ⟨rfl, -⟩)
      · exact (hstays old (hof ▸ hold)).symm
      · rfl
    · refine or_iff_left_of_imp ?_
      rintro ⟨rfl, rfl⟩
      exact absurd ⟨hserver.symm, rfl⟩ hkey

theorem indexed_remove (serverId userId : Snowflake) (hplaced : Placed serverOf r) (h : Indexed serverOf r) :
    Indexed serverOf (voiceStep r (.remove serverId userId)) := by
  intro u c
  unfold JoinedTo
  rw [mem_members_remove, voiceState_remove, h]
  split_ifs with hkey
  · obtain ⟨rfl, rfl⟩ := hkey
    refine iff_of_false ?_ (by simp)
    rintro ⟨⟨st, hst, rfl⟩, hout⟩
    exact hout ⟨st, hst, rfl, rfl⟩
  · refine and_iff_left ?_
    rintro ⟨st, hst, rfl, hu⟩
    exact hkey ⟨(hplaced _ _ st hst).2.2, toString_value_inj.1 hu⟩

/-! ## Runs -/

/-- a call keeps the sets in agreement exactly if it does not move a user to another channel of the server -/
theorem indexed_step (o : VoiceOp) (ho : o.InServer serverOf) (hplaced : Placed serverOf r) (h : Indexed serverOf r) :
    Indexed serverOf (voiceStep r o) ↔ Stays r o := by
  cases o with
  | set state => exact indexed_set ho hplaced h
  | update serverId userId update =>
    refine iff_of_true ?_ trivial
    obtain heq | ⟨state, hserver, hstays, heq⟩ := update_cases hplaced serverId userId update
    · rwa [heq]
    · rw [heq]
      exact (indexed_set hserver hplaced h).2 hstays
  | remove serverId userId => exact iff_of_true (indexed_remove serverId userId hplaced h) trivial

theorem placed_run {ops : List VoiceOp} (h : ∀ o ∈ ops, o.InServer serverOf) :
    Placed serverOf (run voiceStep .empty ops) :=
  run_inv_of_every (fun _ o ho => placed_step o ho) (fun _ _ _ h => nomatch h) (every_of_forall h)

/-- every member of a channel is the text of an id -/
def Ids (r : Redis) : Prop := ∀ c, ∀ m ∈ r.channelMembers c, ∃ u, m = memberOf u

theorem ids_step (r : Redis) (o : VoiceOp) (h : Ids r) : Ids (voiceStep r o) := by
  intro c m hm
  have hset : ∀ state, m ∈ (voiceStep r (.set state)).channelMembers c → ∃ u, m = memberOf u := by
    intro state hm
    obtain hm | ⟨-, hm⟩ := (mem_members_set state).1 hm
    · exact h c m hm
    · exact ⟨_, hm⟩
  cases o with
  | set state => exact hset state hm
  | update serverId userId update =>
    rw [voiceStep_update] at hm
    rcases hst : r.voiceState serverId userId with _ | st
    · exact h c m (by rwa [hst] at hm)
    · exact hset _ (by rwa [hst] at hm)
  | remove serverId userId => exact h c m ((mem_members_remove serverId userId).1 hm).1

theorem ids_run (ops : List VoiceOp) : Ids (run voiceStep .empty ops) :=
  run_inv ids_step (fun _ _ hm => absurd hm List.not_mem_nil) ops

/-- a channel's list is answered as the ids of its members -/
theorem getChannelMembers_run (ops : List VoiceOp) (c : Snowflake) :
    ∃ ids, ((getChannelMembers c).run Command.exec (run voiceStep .empty ops)).1 = .ok ids ∧
      ∀ u, u ∈ ids ↔ memberOf u ∈ (run voiceStep .empty ops).channelMembers c := by
  refine ⟨_, rfl, fun u => ?_⟩
  rw [List.mem_filterMap]
  constructor
  · rintro ⟨m, hm, hu⟩
    obtain ⟨u', rfl⟩ := ids_run ops c m hm
    obtain rfl : u' = u := Option.some.inj ((Snowflake.fromStr_toString u').symm.trans hu)
    exact hm
  · exact fun hm => ⟨_, hm, Snowflake.fromStr_toString u⟩

theorem indexed_empty : Indexed serverOf .empty := fun u c => by simp [JoinedTo, Redis.empty]

/-- **The channel lists agree with the records all along a run exactly if nobody moves inside a server.** -/
theorem index_iff (serverOf : Snowflake → Snowflake) (ops : List VoiceOp) (h : ∀ o ∈ ops, o.InServer serverOf) :
    (∀ l, l <+: ops → Indexed serverOf (run voiceStep .empty l)) ↔ Every voiceStep Stays .empty ops := by
  have hempty : Placed serverOf .empty ∧ Indexed serverOf .empty := ⟨fun _ _ _ h => (nomatch h), indexed_empty⟩
  have hstep : ∀ o ∈ ops, ∀ r, Placed serverOf r ∧ Indexed serverOf r →
      (Placed serverOf (voiceStep r o) ∧ Indexed serverOf (voiceStep r o) ↔ Stays r o) :=
    fun o ho r hr => (and_iff_right (placed_step o (h o ho) hr.1)).trans (indexed_step o (h o ho) hr.1 hr.2)
  rw [← every_iff_prefixes hstep hempty]
  refine forall_congr' fun l => imp_congr_right fun hl => ?_
  exact (and_iff_right (placed_run fun o ho => h o (hl.subset ho))).symm

/-- a user in channel 1 of server 9 -/
def firstVisit : VoiceState := .new ⟨5⟩ ⟨1⟩ ⟨9⟩ "laptop" 0

def secondVisit : VoiceState := .new ⟨5⟩ ⟨2⟩ ⟨9⟩ "phone" 60

/-- the user leaves before the second visit -/
def visits : List VoiceOp :=
  [.set firstVisit, .update ⟨9⟩ ⟨5⟩ ⟨none, some true, none, none, none, none, none⟩, .remove ⟨9⟩ ⟨5⟩, .set secondVisit]

theorem index_iff_stay :
    Every voiceStep Stays .empty visits ∧ Indexed (fun _ => ⟨9⟩) (run voiceStep .empty visits) := by
  have hstays : Every voiceStep Stays .empty visits := by decide
  exact ⟨hstays, (index_iff (fun _ => ⟨9⟩) visits (by decide)).2 hstays visits List.prefix_rfl⟩

/-- **A user who changes channels stays on the list of the first.** -/
theorem moved_on : ¬ ∀ (serverOf : Snowflake → Snowflake) (ops : List VoiceOp), (∀ o ∈ ops, o.InServer serverOf) →
    Indexed serverOf (run voiceStep .empty ops) := by
  intro h
  let ops := [VoiceOp.set firstVisit, .set secondVisit]
  have hmember : memberOf ⟨5⟩ ∈ (run voiceStep .empty ops).channelMembers ⟨1⟩ := by decide
  obtain ⟨state, hstate, hchannel⟩ := (h (fun _ => ⟨9⟩) ops (by decide) ⟨5⟩ ⟨1⟩).1 hmember
  have hsecond : (run voiceStep .empty ops).voiceState ⟨9⟩ ⟨5⟩ = some secondVisit := by decide
  obtain rfl : secondVisit = state := Option.some.inj (hsecond.symm.trans hstate)
  exact absurd hchannel (by decide)

end Lumiere.Voice
