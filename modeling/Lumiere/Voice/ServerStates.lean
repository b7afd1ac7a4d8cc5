/-
`get_server_voice_states` (`lumiere-voice/src/lib.rs`): SCAN collects the keys `voice_state:{server_id}:*`, one MGET reads
them; users join, leave and change their states meanwhile.

- `states_listed`: the list holds states of the server only, each as it is stored when they are read, and nobody is left
  out who is in voice all the time.
- `states_listed_rejoined`: a user who leaves and joins again may be left out, and one may be listed twice.
-/
import Lumiere.Core.Sweep
import Lumiere.Voice.Membership

namespace Lumiere.Voice.ServerStates

open Lumiere.Core Lumiere.Core.Prog Lumiere.Models

-- `E` is the error of the connection
variable {E : Type}

/-! ## Keys -/

/-- `voice_state:{server_id}:{user_id}` -/
def redisKey (serverId userId : Snowflake) : String :=
  "voice_state:" ++ toString serverId.value ++ ":" ++ toString userId.value

/-- what the keys of a server begin with -/
def serverKeys (serverId : Snowflake) : String := "voice_state:" ++ toString serverId.value ++ ":"

/-- `voice_state:{server_id}:*` -/
def serverPattern (serverId : Snowflake) : String := serverKeys serverId ++ "*"

/-! ## Reading the states -/

/-- MGET; keys that are gone are dropped. There are no statements that write -/
def readStates (keys : List String) : Prog (Keyspace String VoiceState) Empty E (List VoiceState) :=
  if keys.isEmpty then pure [] else select fun db => keys.filterMap db

abbrev Listing (E : Type) := Sweep String VoiceState Empty E (List VoiceState)

def getServerVoiceStates : Listing E → Sweep.Op String VoiceState E → Listing E := Sweep.step readStates fun w _ => w.elim

/-! ## What others do -/

/-- the SET of `set_voice_state` -/
def stored (state : VoiceState) : Change String VoiceState := ⟨redisKey state.serverId state.userId, some state⟩

/-- the DEL of `remove_voice_state`, or the end of the 24 hours -/
def removed (serverId userId : Snowflake) : Change String VoiceState := ⟨redisKey serverId userId, none⟩

def IsVoice (c : Change String VoiceState) : Prop :=
  (∃ state, c = stored state) ∨ ∃ serverId userId, c = removed serverId userId

def Command.change? : Command → Option (Change String VoiceState)
  | .setEx serverId userId state _ => some ⟨redisKey serverId userId, some state⟩
  | .del serverId userId => some (removed serverId userId)
  | _ => none

/-- every state is filed under its server and user -/
def Filed (db : Keyspace String VoiceState) : Prop :=
  ∀ k state, db k = some state → k = redisKey state.serverId state.userId

variable {serverId serverId' userId userId' : Snowflake}

/-! ## Keys and patterns -/

theorem isDigit_of_mem_id {c : Char} {id : Snowflake} (h : c ∈ (toString id.value).toList) : c.isDigit = true := by
  have hlist : (toString id.value).toList = Nat.toDigits 10 id.value.toNat := Nat.toList_repr
  rw [hlist] at h
  exact Nat.isDigit_of_mem_toDigits (by decide) (by decide) h

theorem colon_notMem_id (id : Snowflake) : ':' ∉ (toString id.value).toList := by
  intro h
  exact absurd (isDigit_of_mem_id h) (by decide)

/-- an id ends at the colon behind it -/
theorem id_colon_inj {id id' : Snowflake} {x y : List Char}
    (h : (toString id.value).toList ++ ':' :: x = (toString id'.value).toList ++ ':' :: y) : id = id' ∧ x = y := by
  have hids : (toString id.value).toList = (toString id'.value).toList := by
    have hall : ∀ i : Snowflake, ∀ c ∈ (toString i.value).toList, decide (c ≠ ':') = true := by
      intro i c hc
      apply decide_eq_true
      rintro rfl
      exact colon_notMem_id i hc
    have hread := congrArg (List.takeWhile (· ≠ ':')) h
    rw [List.takeWhile_append_of_pos (hall id), List.takeWhile_append_of_pos (hall id')] at hread
    simpa using hread
  rw [hids, List.append_cancel_left_eq] at h
  exact ⟨toString_value_inj.mp (String.toList_inj.mp hids), (List.cons.inj h).2⟩

theorem serverKeys_prefix_iff :
    (serverKeys serverId).toList <+: (redisKey serverId' userId).toList ↔ serverId = serverId' := by
  simp only [serverKeys, redisKey, String.toList_append, List.append_assoc, List.prefix_append_right_inj]
  constructor
  · intro h
    obtain ⟨rest, hrest⟩ := h
    rw [List.append_assoc] at hrest
    exact (id_colon_inj hrest).1
  · rintro rfl
    exact (List.prefix_append_right_inj _).mpr (List.prefix_append _ _)

theorem redisKey_inj (h : redisKey serverId userId = redisKey serverId' userId') :
    serverId = serverId' ∧ userId = userId' := by
  have hlist := congrArg String.toList h
  simp only [redisKey, String.toList_append, List.append_assoc, List.append_cancel_left_eq] at hlist
  obtain ⟨rfl, huser⟩ := id_colon_inj hlist
  exact ⟨rfl, toString_value_inj.mp (String.toList_inj.mp huser)⟩

theorem serverKeys_literal : ∀ c ∈ (serverKeys serverId).toList, isSpecial c = false := by
  have hwords : ("voice_state:".toList.all fun c => !isSpecial c) = true := by decide
  have hcolon : (":".toList.all fun c => !isSpecial c) = true := by decide
  intro c hc
  simp only [serverKeys, String.toList_append, List.mem_append] at hc
  rcases hc with (hc | hc) | hc
  · simpa using List.all_eq_true.mp hwords c hc
  · exact not_isSpecial_of_isDigit (isDigit_of_mem_id hc)
  · simpa using List.all_eq_true.mp hcolon c hc

/-- the pattern of a server matches its own keys only -/
theorem accepts_redisKey (glob : Glob) :
    glob.accepts (serverPattern serverId) (redisKey serverId' userId) = true ↔ serverId = serverId' := by
  rw [serverPattern, glob.star _ _ serverKeys_literal, serverKeys_prefix_iff]

/-! ## The calls of the service -/

theorem issues_setVoiceState (state : VoiceState) :
    (setVoiceState state).Issues fun w => ∀ c ∈ Command.change? w, IsVoice c := by
  apply issues_bind (issues_execute _)
  · intro _
    apply issues_execute
    simp [Command.change?]
  · intro c hc
    exact .inl ⟨state, (Option.some.inj hc).symm⟩

theorem issues_updateVoiceState (update : VoiceStateUpdate) :
    (updateVoiceState serverId userId update).Issues fun w => ∀ c ∈ Command.change? w, IsVoice c := by
  apply issues_bind (issues_select _)
  intro stored
  apply issues_bind (issues_orFail _ _)
  intro state
  apply issues_bind (issues_setVoiceState _)
  intro _
  exact issues_pure _

theorem issues_removeVoiceState :
    (removeVoiceState serverId userId).Issues fun w => ∀ c ∈ Command.change? w, IsVoice c := by
  apply issues_bind (issues_select _)
  intro state
  apply issues_bind (issues_execute _)
  · intro _
    apply issues_bind
    · apply issues_forM_option
      intro state _
      apply issues_execute
      simp [Command.change?]
    · intro _
      exact issues_pure _
  · intro c hc
    exact .inr ⟨serverId, userId, (Option.some.inj hc).symm⟩

/-- the states by server and user, and by their keys -/
def Agree (r : Redis) (db : Keyspace String VoiceState) : Prop :=
  ∀ serverId userId, db (redisKey serverId userId) = r.voiceState serverId userId

theorem agree_update {r : Redis} {db : Keyspace String VoiceState} (h : Agree r db) (state : Option VoiceState) :
    Agree { r with voiceState :=
        Function.update r.voiceState serverId (Function.update (r.voiceState serverId) userId state) }
      (Change.apply db ⟨redisKey serverId userId, state⟩) := by
  intro serverId' userId'
  by_cases hkey : redisKey serverId' userId' = redisKey serverId userId
  · obtain ⟨rfl, rfl⟩ := redisKey_inj hkey
    rw [Change.apply, Function.update_self]
    simp
  · have hne : (⟨redisKey serverId userId, state⟩ : Change String VoiceState).key ≠ redisKey serverId' userId' :=
      Ne.symm hkey
    rw [Change.apply_of_ne hne, h serverId' userId']
    by_cases hserver : serverId' = serverId
    · subst hserver
      have huser : userId' ≠ userId := by
        rintro rfl
        exact hkey rfl
      simp [Function.update_of_ne huser]
    · simp [Function.update_of_ne hserver]

/-- a command changes both in the same way -/
theorem agree_exec {r r' : Redis} {db : Keyspace String VoiceState} {w : Command} {n : ℕ} (h : Agree r db)
    (hexec : w.exec r = .ok (n, r')) : Agree r' (db.after (Command.change? w).toList) := by
  cases w with
  | setEx serverId userId state seconds =>
    obtain ⟨-, rfl⟩ := Prod.mk.inj (Except.ok.inj hexec)
    exact agree_update h (some state)
  | del serverId userId =>
    obtain ⟨-, rfl⟩ := Prod.mk.inj (Except.ok.inj hexec)
    exact agree_update h none
  | sadd channelId member =>
    rw [Command.exec] at hexec
    split_ifs at hexec with hmember
    · obtain ⟨-, rfl⟩ := Prod.mk.inj (Except.ok.inj hexec)
      exact h
    · obtain ⟨-, rfl⟩ := Prod.mk.inj (Except.ok.inj hexec)
      exact h
  | srem channelId member =>
    obtain ⟨-, rfl⟩ := Prod.mk.inj (Except.ok.inj hexec)
    exact h

/-- **What a call leaves in Redis** is what some such changes leave. -/
theorem call_changes {α : Type} {call : Prog Redis Command VoiceError α}
    (hcall : call.Issues fun w => ∀ c ∈ Command.change? w, IsVoice c) {r : Redis} {db : Keyspace String VoiceState}
    (h : Agree r db) : ∃ cs, (∀ c ∈ cs, IsVoice c) ∧ Agree (call.run Command.exec r).2 (db.after cs) := by
  refine issues_run (I := fun r => ∃ cs, (∀ c ∈ cs, IsVoice c) ∧ Agree r (db.after cs)) ?_ hcall ⟨[], by simp, h⟩
  intro w r₁ n r₂ hw hbefore hexec
  obtain ⟨cs, hcs, hagree⟩ := hbefore
  refine ⟨cs ++ (Command.change? w).toList, ?_, ?_⟩
  · intro c hc
    rcases List.mem_append.mp hc with hold | hnew
    · exact hcs c hold
    · exact hw c (Option.mem_toList.mp hnew)
  · rw [Keyspace.after, List.foldl_append]
    exact agree_exec hagree hexec

theorem setVoiceState_changes (state : VoiceState) {r : Redis} {db : Keyspace String VoiceState} (h : Agree r db) :
    ∃ cs, (∀ c ∈ cs, IsVoice c) ∧ Agree ((setVoiceState state).run Command.exec r).2 (db.after cs) :=
  call_changes (issues_setVoiceState state) h

theorem updateVoiceState_changes (update : VoiceStateUpdate) {r : Redis} {db : Keyspace String VoiceState}
    (h : Agree r db) : ∃ cs, (∀ c ∈ cs, IsVoice c) ∧
      Agree ((updateVoiceState serverId userId update).run Command.exec r).2 (db.after cs) :=
  call_changes (issues_updateVoiceState update) h

theorem removeVoiceState_changes {r : Redis} {db : Keyspace String VoiceState} (h : Agree r db) :
    ∃ cs, (∀ c ∈ cs, IsVoice c) ∧ Agree ((removeVoiceState serverId userId).run Command.exec r).2 (db.after cs) :=
  call_changes issues_removeVoiceState h

/-! ## The list -/

theorem filed_after {db : Keyspace String VoiceState} {cs : List (Change String VoiceState)} (h : Filed db)
    (hcs : ∀ c ∈ cs, IsVoice c) : Filed (db.after cs) := by
  induction cs using List.reverseRecOn with
  | nil => exact h
  | append_singleton cs c ih =>
    have hfiled := ih fun c' hc' => hcs c' (List.mem_append_left _ hc')
    rw [Keyspace.after_snoc]
    intro k state hk
    by_cases hck : c.key = k
    · subst hck
      rw [Change.apply_key] at hk
      obtain ⟨state', rfl⟩ | ⟨serverId, userId, rfl⟩ := hcs c (by simp)
      · obtain rfl := Option.some.inj hk
        rfl
      · cases hk
    · rw [Change.apply_of_ne hck] at hk
      exact hfiled k state hk

/-- the list of a server, as others have left its states -/
structure Listed (serverId : Snowflake) (db : Keyspace String VoiceState) (cs : List (Change String VoiceState))
    (states : List VoiceState) : Prop where
  current : ∀ state ∈ states,
    state.serverId = serverId ∧ db.after cs (redisKey serverId state.userId) = some state
  complete : ∀ userId, Core.Stays (redisKey serverId userId) db cs → ∃ state ∈ states, state.userId = userId

theorem readStates_advance (ks : List String) (db : Keyspace String VoiceState) :
    (readStates ks : Prog _ Empty E _).advance (fun w _ => w.elim) db = (.ret (ks.filterMap db), db) := by
  rw [readStates]
  split_ifs with hempty
  · rw [List.isEmpty_iff.mp hempty]
    rfl
  · rfl

/-- **The list shows the states of the server at one time,** with everybody who has been there all along. -/
theorem states_listed (glob : Glob) (serverId : Snowflake) (db : Keyspace String VoiceState)
    {ops : List (Sweep.Op String VoiceState E)} (hfiled : Filed db) (hvoice : ∀ c ∈ Sweep.changes ops, IsVoice c)
    (h : Sweep.Scanned (glob.accepts (serverPattern serverId)) db ops) {states : List VoiceState}
    (hdone : (run getServerVoiceStates (Sweep.start db) ops).state = .inr (.ret states)) :
    ∃ l, l <+: ops ∧ Listed serverId db (Sweep.changes l) states ∧ ((Sweep.batches ops).Nodup → states.Nodup) := by
  obtain ⟨l, batch, m, hpre, hlast, rfl⟩ := Sweep.answered readStates_advance hdone
  have hiteration : l ++ [.reply 0 batch] <+: ops := (List.prefix_append _ m).trans hpre
  have hsame : Sweep.changes (l ++ [.reply 0 batch] ++ m) = Sweep.changes (l ++ m) := by
    rw [Sweep.changes_append, Sweep.changes_reply, Sweep.changes_append]
  have hnow : Filed (db.after (Sweep.changes (l ++ m))) := by
    apply filed_after hfiled
    intro c hc
    rw [← hsame] at hc
    exact hvoice c ((hpre.filterMap Sweep.Op.change?).subset hc)
  refine ⟨_, hpre, ?_, ?_⟩
  · rw [hsame]
    constructor
    · intro state hstate
      obtain ⟨k, hk, hget⟩ := List.mem_filterMap.mp hstate
      obtain rfl := hnow k state hget
      have hmatch : glob.accepts (serverPattern serverId) (redisKey state.serverId state.userId) = true := by
        apply h.matching
        apply (hiteration.flatMap Sweep.Op.batch).subset
        simpa [Sweep.batches, Sweep.Op.batch] using hk
      obtain rfl := (accepts_redisKey glob).mp hmatch
      exact ⟨rfl, hget⟩
    · intro userId hstays
      have hbefore : Core.Stays (redisKey serverId userId) db (Sweep.changes l) :=
        Sweep.stays_of_prefix hstays (List.prefix_append l m)
      have hk := h.complete l batch hiteration hlast _ ((accepts_redisKey glob).mpr rfl) hbefore
      obtain ⟨state, hstate⟩ := Option.isSome_iff_exists.mp (hstays _ List.prefix_rfl)
      exact ⟨state, List.mem_filterMap.mpr ⟨_, hk, hstate⟩, (redisKey_inj (hnow _ state hstate)).2.symm⟩
  · intro hnodup
    have hkeys : (Sweep.batches l ++ batch).Nodup := by
      refine hnodup.sublist ?_
      have hsub := (hiteration.flatMap Sweep.Op.batch).sublist
      simpa [Sweep.batches, Sweep.Op.batch] using hsub
    apply hkeys.filterMap
    intro k k' state hk hk'
    rw [hnow k state hk, hnow k' state hk']

/-- user 7 of server 1, user 8 of server 1 and user 9 of server 10 -/
def ada : VoiceState := .new ⟨7⟩ ⟨70⟩ ⟨1⟩ "a" 0

def bob : VoiceState := .new ⟨8⟩ ⟨70⟩ ⟨1⟩ "b" 0

def eve : VoiceState := .new ⟨9⟩ ⟨71⟩ ⟨10⟩ "e" 0

def inVoice : Keyspace String VoiceState := fun k =>
  if k = redisKey ⟨1⟩ ⟨7⟩ then some ada
  else if k = redisKey ⟨1⟩ ⟨8⟩ then some bob
  else if k = redisKey ⟨10⟩ ⟨9⟩ then some eve
  else none

/-- user 8 leaves and comes back while the keys are collected; the key of user 7 is reported twice -/
def rejoining : List (Sweep.Op String VoiceState Empty) :=
  [.reply 3 [redisKey ⟨1⟩ ⟨7⟩], .change (removed ⟨1⟩ ⟨8⟩), .change (stored { ada with selfMute := true }),
    .reply 0 [redisKey ⟨1⟩ ⟨7⟩], .change (stored bob), .advance]

theorem filed_inVoice : Filed inVoice := by
  intro k state hk
  rw [inVoice] at hk
  split_ifs at hk with hada hbob heve
  · obtain rfl := Option.some.inj hk
    exact hada
  · obtain rfl := Option.some.inj hk
    exact hbob
  · obtain rfl := Option.some.inj hk
    exact heve

theorem isVoice_rejoining : ∀ c ∈ Sweep.changes rejoining, IsVoice c := by
  intro c hc
  have hcases : removed ⟨1⟩ ⟨8⟩ = c ∨ stored { ada with selfMute := true } = c ∨ stored bob = c := by
    simpa [Sweep.changes, rejoining, Sweep.Op.change?] using hc
  rcases hcases with rfl | rfl | rfl
  · exact .inr ⟨_, _, rfl⟩
  · exact .inl ⟨_, rfl⟩
  · exact .inl ⟨_, rfl⟩

theorem scanned_rejoining : Sweep.Scanned (Glob.literal.accepts (serverPattern ⟨1⟩)) inVoice rejoining := by
  refine Sweep.scanned_of_last (l := rejoining.take 3) (m := rejoining.drop 4) (by decide) (by decide) ?_
  intro k hk hstays
  have hthere : (inVoice k).isSome = true := hstays [] List.nil_prefix
  have hleft : (inVoice.after [removed ⟨1⟩ ⟨8⟩] k).isSome = true := hstays _ (by decide)
  rw [inVoice] at hthere
  split_ifs at hthere with hada hbob heve
  · rw [hada]
    decide
  · subst hbob
    exact absurd hleft (by decide)
  · subst heve
    exact absurd hk (by decide)
  · cases hthere

/-- user 8 is in voice in the end, and not on the list; user 7 is on it twice -/
theorem states_listed_rejoined :
    (∃ l, l <+: rejoining ∧
      Listed ⟨1⟩ inVoice (Sweep.changes l) [{ ada with selfMute := true }, { ada with selfMute := true }] ∧
      ((Sweep.batches rejoining).Nodup →
        [{ ada with selfMute := true }, { ada with selfMute := true : VoiceState }].Nodup)) ∧
      inVoice.after (Sweep.changes rejoining) (redisKey ⟨1⟩ ⟨8⟩) = some bob :=
  ⟨states_listed .literal ⟨1⟩ inVoice filed_inVoice isVoice_rejoining scanned_rejoining rfl, by decide⟩

end Lumiere.Voice.ServerStates
