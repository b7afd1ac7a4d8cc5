/-
Slowmode (`send_message` in `lumiere-server/src/routes/messages.rs`) with any number of messages of one user in one
channel at a time. The key of the user is asked for before a message is inserted and set afterwards, several commands
later; Redis and the inserts have a clock, and a key is there until it expires.

- `run_sendMessage`: alone and while no time passes, the handler is the one of `MessageWrites`.
- `follows_sendMessage`: which commands it executes, in which order.
- `slowmode_kept`: messages are as far apart as the rate limit demands, as long as no request finds the key missing while
  another one is between its own look and its `SET`, and none stops after its insert.
- `two_at_once`: two requests that look before either has set the key.
-/
import Lumiere.Core.Protocol
import Lumiere.Routes.MessageRequests

namespace Lumiere.Routes.Slowmode

open Lumiere.Core Lumiere.Core.Prog Lumiere.Models Lumiere.Db

/-! ## The handler and its clock -/

structure Clocked where
  world : World
  now : DateTime
  /-- by channel and author, when their messages were inserted, oldest first -/
  inserted : ℤ × ℤ → List DateTime

inductive Command where
  /-- `EXISTS slowmode:{channel}:{user}` -/
  | slowmodeExists (channelId userId : ℤ)
  /-- `SET slowmode:{channel}:{user} 1 EX seconds` -/
  | setSlowmode (channelId userId seconds : ℤ)
  | effect (e : Effect)
deriving DecidableEq, Repr

/-- the time of an insert is noted -/
def Clocked.noted (s : Clocked) : Effect → ℤ × ℤ → List DateTime
  | .cql (.insertMessage key row) =>
    Function.update s.inserted (key.channelId, row.authorId) (s.inserted (key.channelId, row.authorId) ++ [s.now])
  | _ => s.inserted

def Command.exec : Command → Clocked → Except AppError (ℕ × Clocked)
  | .slowmodeExists channelId userId, s => .ok (if s.world.slowed channelId userId s.now then 1 else 0, s)
  | .setSlowmode channelId userId seconds, s =>
    ((Effect.setSlowmode channelId userId seconds s.now).exec s.world).map fun r => (r.1, { s with world := r.2 })
  | .effect e, s => (e.exec s.world).map fun r => (r.1, { s with world := r.2, inserted := s.noted e })

abbrev Post := Prog Clocked Command AppError

def onWorld {α : Type} (p : Route α) : Post α := p.lift Clocked.world Command.effect

/-- the key is asked for if there is a rate limit -/
def slowmodeCheck (auth channelId rateLimit : ℤ) : Post Unit :=
  when (0 < rateLimit) do
    let n ← affected (.slowmodeExists channelId auth)
    failIf (0 < n) (.rateLimited rateLimit.toNat)

/-- what `send_message` publishes -/
def announce (channelId : ℤ) (serverId : Option ℤ) (response : MessageResponse) : Route Unit := do
  let event : Event := .messageCreate channelId serverId response
  execute (.publish ⟨channelMessages channelId, event⟩)
  serverId.forM fun sid => execute (.publish ⟨serverEvents sid, event⟩)
  execute (.publishDurable ⟨persistMessages channelId, event⟩)

def response (auth channelId : ℤ) (body : SendMessageRequest) (messageId : Snowflake) (mentionEveryone : Bool) :
    MessageResponse where
  id := messageId.toI64
  channelId
  authorId := auth
  content := body.content
  timestamp := messageId.createdAt
  editedTimestamp := none
  messageType := if body.messageReference.isSome then 19 else 0
  flags := 0
  pinned := false
  mentionEveryone
  mentions := (mentionsOf body.content).1
  mentionRoles := (mentionsOf body.content).2.1
  embeds := body.embeds
  attachments := body.attachments
  referenceId := body.messageReference

/-- from the insert on -/
def store (auth channelId : ℤ) (body : SendMessageRequest) (messageId : Snowflake) (serverId : Option ℤ)
    (rateLimit : ℤ) (mentionEveryone : Bool) : Post MessageResponse := do
  execute (.effect (.cql (.insertMessage (newKey channelId messageId) (sentRow auth body mentionEveryone))))
  execute (.effect (.setLastMessage messageId.toI64 channelId))
  when (0 < rateLimit) (execute (.setSlowmode channelId auth rateLimit))
  onWorld (announce channelId serverId (response auth channelId body messageId mentionEveryone))
  pure (response auth channelId body messageId mentionEveryone)

def sendMessage (auth channelId : ℤ) (body : SendMessageRequest) (messageId : Snowflake) : Post MessageResponse := do
  let serverId ← onWorld (onPg (checkChannelPermission channelId auth .sendMessages))
  failIf (!body.hasContent && !body.hasEmbeds && !body.hasAttachments)
    (.badRequest "Message must have content, embeds, or attachments")
  failIf (body.content.any fun c => 4000 < c.length) (.badRequest "Content must be 4000 characters or less")
  let rateLimit ← select fun s => channelRateLimit s.world.pg channelId
  slowmodeCheck auth channelId rateLimit
  let timedOut ← select fun s => serverId.bind fun sid => timedOutUntil s.world.pg sid auth
  let now ← select Clocked.now
  failIf (timedOut.any fun u => now.millis < u.millis) (.forbidden "You are timed out in this server")
  let mentionEveryone ← select fun s => mentionsEveryone auth serverId (mentionsOf body.content).2.2 s.world.pg
  store auth channelId body messageId serverId rateLimit mentionEveryone

/-! ## Alone -/

/-- while the clock stands still, `p` answers what `q` does and leaves the same world behind -/
def Alike (now : DateTime) {α : Type} (p : Post α) (q : Route α) : Prop :=
  ∀ s : Clocked, s.now = now → ∃ inserted,
    p.run Command.exec s = ((q.run Effect.exec s.world).1, ⟨(q.run Effect.exec s.world).2, now, inserted⟩)

section Alone

variable {now : DateTime} {α β : Type} {p : Post α} {q : Route α} {f : α → Post β} {g : α → Route β}

theorem alike_bind (hp : Alike now p q) (hf : ∀ a, Alike now (f a) (g a)) : Alike now (p >>= f) (q >>= g) := by
  intro s hs
  obtain ⟨inserted, h⟩ := hp s hs
  rw [run_bind, h, run_bind]
  rcases q.run Effect.exec s.world with ⟨e | a, w⟩
  · exact ⟨inserted, rfl⟩
  · exact hf a ⟨w, now, inserted⟩ rfl

theorem alike_pure (a : α) : Alike now (pure a : Post α) (pure a) := by
  rintro s rfl
  exact ⟨s.inserted, rfl⟩

theorem alike_failIf {c : Prop} [Decidable c] (e : AppError) : Alike now (failIf c e : Post Unit) (failIf c e) := by
  rintro s rfl
  rw [run_failIf, run_failIf]
  exact ⟨s.inserted, rfl⟩

theorem alike_select (h : World → α) : Alike now (select fun s => h s.world : Post α) (select h) := by
  rintro s rfl
  exact ⟨s.inserted, rfl⟩

/-- the clock is read -/
theorem alike_now {k : DateTime → Post α} (h : Alike now (k now) q) : Alike now (select Clocked.now >>= k) q := by
  rintro s rfl
  exact h s rfl

theorem alike_onWorld (q : Route α) : Alike now (onWorld q) q := by
  induction q with
  | ret a => exact alike_pure a
  | fail e =>
    rintro s rfl
    exact ⟨s.inserted, rfl⟩
  | query next ih => exact fun s hs => ih s.world s hs
  | exec e next ih =>
    intro s hs
    show ∃ inserted, (Prog.exec (.effect e) fun n => onWorld (next n)).run Command.exec s = _
    rw [run_exec, run_exec, Command.exec]
    rcases e.exec s.world with err | ⟨n, w⟩
    · subst hs
      exact ⟨s.inserted, rfl⟩
    · exact ih n ⟨w, s.now, s.noted e⟩ hs
  | tx body next ihb ih =>
    intro s hs
    obtain ⟨inserted, h⟩ := ihb s hs
    show ∃ inserted, (Prog.tx (onWorld body) fun b => onWorld (next b)).run Command.exec s = _
    rw [run_tx, run_tx, h]
    rcases body.run Effect.exec s.world with ⟨err | b, w⟩
    · subst hs
      exact ⟨s.inserted, rfl⟩
    · exact ih b ⟨w, now, inserted⟩ rfl

theorem alike_effect (e : Effect) : Alike now (execute (.effect e)) (execute e) := alike_onWorld (execute e)

theorem alike_setSlowmode {auth channelId rateLimit : ℤ} :
    Alike now (when (0 < rateLimit) (execute (.setSlowmode channelId auth rateLimit)))
      (when (0 < rateLimit) (execute (.setSlowmode channelId auth rateLimit now))) := by
  rw [when, when]
  split_ifs
  · rintro s rfl
    exact ⟨s.inserted, rfl⟩
  · exact alike_pure ()

theorem alike_slowmodeCheck {auth channelId rateLimit : ℤ} :
    Alike now (slowmodeCheck auth channelId rateLimit) (do
      let slowed ← select fun w => w.slowed channelId auth now
      failIf (0 < rateLimit ∧ slowed) (.rateLimited rateLimit.toNat)) := by
  rintro s rfl
  refine ⟨s.inserted, ?_⟩
  rw [run_bind_of_ok (run_select _), run_failIf, slowmodeCheck, when]
  by_cases hlimit : 0 < rateLimit
  · rw [if_pos hlimit, run_bind_of_ok (affected_eq_ok.2 rfl), run_failIf]
    rcases s.world.slowed channelId auth s.now with _ | _ <;> simp [hlimit]
  · simp [hlimit]
    rfl

/-- **Alone and while no time passes, the handler is `sendMessage`.** -/
theorem run_sendMessage (auth channelId : ℤ) (body : SendMessageRequest) (messageId : Snowflake) :
    Alike now (sendMessage auth channelId body messageId) (Routes.sendMessage auth channelId body messageId now) := by
  have hsource : Routes.sendMessage auth channelId body messageId now = (do
      let serverId ← onPg (checkChannelPermission channelId auth .sendMessages)
      failIf (!body.hasContent && !body.hasEmbeds && !body.hasAttachments)
        (.badRequest "Message must have content, embeds, or attachments")
      failIf (body.content.any fun c => 4000 < c.length) (.badRequest "Content must be 4000 characters or less")
      let rateLimit ← select fun w => channelRateLimit w.pg channelId
      (do
        let slowed ← select fun w => w.slowed channelId auth now
        failIf (0 < rateLimit ∧ slowed) (.rateLimited rateLimit.toNat))
      let timedOut ← select fun w => serverId.bind fun sid => timedOutUntil w.pg sid auth
      failIf (timedOut.any fun u => now.millis < u.millis) (.forbidden "You are timed out in this server")
      let mentionEveryone ← select fun w => mentionsEveryone auth serverId (mentionsOf body.content).2.2 w.pg
      execute (.cql (.insertMessage (newKey channelId messageId) (sentRow auth body mentionEveryone)))
      execute (.setLastMessage messageId.toI64 channelId)
      when (0 < rateLimit) (execute (.setSlowmode channelId auth rateLimit now))
      announce channelId serverId (response auth channelId body messageId mentionEveryone)
      pure (response auth channelId body messageId mentionEveryone)) := by
    simp only [announce, bind_bind]
    rfl
  rw [hsource]
  refine alike_bind (alike_onWorld _) fun serverId => ?_
  refine alike_bind (alike_failIf _) fun _ => ?_
  refine alike_bind (alike_failIf _) fun _ => ?_
  refine alike_bind (alike_select fun w => channelRateLimit w.pg channelId) fun rateLimit => ?_
  refine alike_bind alike_slowmodeCheck fun _ => ?_
  refine alike_bind (alike_select fun w => serverId.bind fun sid => timedOutUntil w.pg sid auth) fun timedOut => ?_
  refine alike_now (alike_bind (alike_failIf _) fun _ => ?_)
  refine alike_bind (alike_select fun w => mentionsEveryone auth serverId _ w.pg) fun mentionEveryone => ?_
  refine alike_bind (alike_effect _) fun _ => ?_
  refine alike_bind (alike_effect _) fun _ => ?_
  refine alike_bind alike_setSlowmode fun _ => ?_
  exact alike_bind (alike_onWorld _) fun _ => alike_pure _

end Alone

/-! ## The order of its commands -/

inductive Phase where
  /-- the key has not been asked for -/
  | before
  /-- the key was not there, and the message is not inserted -/
  | checked
  /-- the message is inserted, and the key is not set -/
  | inserted
  | over
deriving DecidableEq, Repr

/-- the rate limit of the channel is at least `r` -/
def Limited (channelId r : ℤ) (s : Clocked) : Prop := r ≤ channelRateLimit s.world.pg channelId

def slowmode (auth channelId r : ℤ) : Protocol Command Phase where
  after
    | .before, .slowmodeExists channel userId, n =>
      if channel = channelId ∧ userId = auth then some (if n = 0 then .checked else .over) else none
    | .checked, .effect (.cql (.insertMessage key row)), _ =>
      if key.channelId = channelId ∧ row.authorId = auth then some .inserted else none
    | .inserted, .effect (.setLastMessage ..), _ => some .inserted
    | .inserted, .setSlowmode channel userId seconds, _ =>
      if channel = channelId ∧ userId = auth ∧ r ≤ seconds then some .over else none
    | .over, .effect (.publish _), _ | .over, .effect (.publishDurable _), _ => some .over
    | _, _, _ => none
  ends k := k ≠ .inserted

section Order

variable {auth channelId r : ℤ} {body : SendMessageRequest} {messageId : Snowflake}

theorem follows_announce {serverId : Option ℤ} {m : MessageResponse} :
    (onWorld (announce channelId serverId m) >>= fun _ => pure m).Follows (slowmode auth channelId r)
      (Limited channelId r) .over := by
  have hover : (slowmode auth channelId r).ends .over := nofun
  cases serverId with
  | none => exact fun _ => ⟨.over, rfl, fun _ => ⟨.over, rfl, hover⟩⟩
  | some sid => exact fun _ => ⟨.over, rfl, fun _ => ⟨.over, rfl, fun _ => ⟨.over, rfl, hover⟩⟩⟩

theorem follows_store {serverId : Option ℤ} {rateLimit : ℤ} {mentionEveryone : Bool} (hr : 0 < r)
    (hlimit : r ≤ rateLimit) :
    (store auth channelId body messageId serverId rateLimit mentionEveryone).Follows (slowmode auth channelId r)
      (Limited channelId r) .checked := by
  rw [store, when, if_pos (hr.trans_le hlimit)]
  refine follows_execute_bind (fun _ => if_pos ⟨rfl, rfl⟩) ?_
  refine follows_execute_bind (fun _ => rfl) ?_
  exact follows_execute_bind (fun _ => if_pos ⟨rfl, rfl, hlimit⟩) follows_announce

theorem follows_sendMessage (hr : 0 < r) :
    (sendMessage auth channelId body messageId).Follows (slowmode auth channelId r) (Limited channelId r) .before := by
  have hbefore : (slowmode auth channelId r).ends .before := nofun
  have hchecked : (slowmode auth channelId r).ends .checked := nofun
  have hcheck : (onWorld (onPg (checkChannelPermission channelId auth .sendMessages))).ReadOnly :=
    issues_lift readOnly_check
  refine hcheck.follows_bind hbefore fun serverId => ?_
  refine ReadOnly.follows_bind (issues_failIf _ _) hbefore fun _ => ?_
  refine ReadOnly.follows_bind (issues_failIf _ _) hbefore fun _ => ?_
  intro s hs
  have hlimit : 0 < channelRateLimit s.world.pg channelId := hr.trans_le hs
  show (slowmodeCheck auth channelId (channelRateLimit s.world.pg channelId) >>= _).Follows _ _ _
  rw [slowmodeCheck, when, if_pos hlimit]
  intro n
  refine ⟨if n = 0 then .checked else .over, if_pos ⟨rfl, rfl⟩, ?_⟩
  cases n with
  | succ n => rintro ⟨⟩
  | zero =>
    show (select (fun s : Clocked => serverId.bind fun sid => timedOutUntil s.world.pg sid auth) >>= _).Follows _ _
      Phase.checked
    refine ReadOnly.follows_bind (issues_select _) hchecked fun timedOut => ?_
    refine ReadOnly.follows_bind (issues_select _) hchecked fun now => ?_
    refine ReadOnly.follows_bind (issues_failIf _ _) hchecked fun _ => ?_
    refine ReadOnly.follows_bind (issues_select _) hchecked fun mentionEveryone => ?_
    exact follows_store hr hs

end Order

/-! ## What its commands do -/

section Moves

variable (auth channelId r : ℤ)

/-- the times, the key of the user and the clock are as they were -/
structure Still (s s' : Clocked) : Prop where
  now : s'.now = s.now
  inserted : s'.inserted (channelId, auth) = s.inserted (channelId, auth)
  slowmode : s'.world.slowmode (channelId, auth) = s.world.slowmode (channelId, auth)
  limited : Limited channelId r s → Limited channelId r s'

/-- one command of a request -/
inductive Moves : Phase → Clocked → Phase → Clocked → Prop where
  | look {s : Clocked} {k : Phase} (hk : k ≠ .inserted)
    (hfree : k = .checked → s.world.slowed channelId auth s.now = false) : Moves .before s k s
  | insert {s s' : Clocked} (hnow : s'.now = s.now)
    (hinserted : s'.inserted (channelId, auth) = s.inserted (channelId, auth) ++ [s.now])
    (hlimited : Limited channelId r s → Limited channelId r s') : Moves .checked s .inserted s'
  | update {s s' : Clocked} (h : Still auth channelId r s s') : Moves .inserted s .inserted s'
  | set {s s' : Clocked} {seconds : ℤ} (hseconds : r ≤ seconds) (hnow : s'.now = s.now)
    (hinserted : s'.inserted (channelId, auth) = s.inserted (channelId, auth))
    (hset : s'.world.slowmode (channelId, auth) = some ⟨s.now.millis + 1000 * seconds⟩)
    (hlimited : Limited channelId r s → Limited channelId r s') : Moves .inserted s .over s'
  | publish {s s' : Clocked} (h : Still auth channelId r s s') : Moves .over s .over s'

variable {auth channelId r} {s s' : Clocked} {k k' : Phase} {w : Command} {n : ℕ}

theorem rateLimit_setLastMessage {channel messageId : ℤ} {w w' : World} {n : ℕ}
    (h : (Effect.setLastMessage messageId channel).exec w = .ok (n, w')) :
    channelRateLimit w'.pg channelId = channelRateLimit w.pg channelId := by
  obtain ⟨-, rfl⟩ := Prod.mk.inj (Except.ok.inj h)
  refine (congrArg (fun o => (o.map Channel.rateLimit).getD 0) (Table.find?_updateWhere (t := w.pg.channels)
    (p := fun c => c.id = channel) (f := fun c => { c with lastMessageId := some messageId }) (fun _ => rfl)
    channelId)).trans ?_
  rw [channelRateLimit, Option.map_map]
  refine congrArg (fun g => ((w.pg.channels.find? _).map g).getD 0) (funext fun c => ?_)
  rw [Function.comp]
  split_ifs <;> rfl

/-- **What a command of the protocol does.** -/
theorem moves_of_after (hk : (slowmode auth channelId r).after k w n = some k') (h : w.exec s = .ok (n, s')) :
    Moves auth channelId r k s k' s' := by
  simp only [slowmode] at hk
  split at hk
  · split_ifs at hk with hkey hn
    · obtain ⟨rfl, rfl⟩ := hkey
      obtain ⟨hcount, rfl⟩ := Prod.mk.inj (Except.ok.inj h)
      obtain rfl := Option.some.inj hk
      refine .look nofun fun _ => Bool.eq_false_iff.2 fun hslowed => ?_
      rw [if_pos hslowed, hn] at hcount
      cases hcount
    · obtain ⟨-, rfl⟩ := Prod.mk.inj (Except.ok.inj h)
      obtain rfl := Option.some.inj hk
      exact .look nofun nofun
  · split_ifs at hk with hkey
    obtain ⟨rfl, rfl⟩ := hkey
    obtain rfl := Option.some.inj hk
    obtain ⟨-, rfl⟩ := Prod.mk.inj (Except.ok.inj h)
    exact .insert rfl (Function.update_self ..) id
  · obtain rfl := Option.some.inj hk
    obtain ⟨-, rfl⟩ := Prod.mk.inj (Except.ok.inj h)
    exact .update ⟨rfl, rfl, rfl, fun hlimited => hlimited.trans_eq (rateLimit_setLastMessage rfl).symm⟩
  · split_ifs at hk with hkey
    obtain ⟨rfl, rfl, hseconds⟩ := hkey
    obtain rfl := Option.some.inj hk
    obtain ⟨-, rfl⟩ := Prod.mk.inj (Except.ok.inj h)
    exact .set hseconds rfl rfl (Function.update_self ..) id
  · obtain rfl := Option.some.inj hk
    obtain ⟨-, rfl⟩ := Prod.mk.inj (Except.ok.inj h)
    exact .publish ⟨rfl, rfl, rfl, id⟩
  · obtain rfl := Option.some.inj hk
    obtain ⟨-, rfl⟩ := Prod.mk.inj (Except.ok.inj h)
    exact .publish ⟨rfl, rfl, rfl, id⟩
  · cases hk

end Moves

/-! ## The times of the messages -/

section Times

variable (auth channelId r : ℤ) (s : Clocked)

/-- the user has inserted no message in the last `r` seconds -/
def Clear : Prop := ∀ t ∈ s.inserted (channelId, auth), t.millis + 1000 * r ≤ s.now.millis

/-- the key stays until `r` seconds after any message -/
def Covered : Prop :=
  ∀ t ∈ s.inserted (channelId, auth), t.millis + 1000 * r ≤ s.now.millis ∨
    ∃ expires ∈ s.world.slowmode (channelId, auth), t.millis + 1000 * r ≤ expires.millis

structure Spaced : Prop where
  apart : (s.inserted (channelId, auth)).Pairwise fun t t' => t.millis + 1000 * r ≤ t'.millis
  past : ∀ t ∈ s.inserted (channelId, auth), t.millis ≤ s.now.millis
  limited : Limited channelId r s

variable {auth channelId r s} {s' : Clocked} {k k' : Phase}

theorem Still.clear (h : Still auth channelId r s s') (hs : Clear auth channelId r s) : Clear auth channelId r s' := by
  rw [Clear, h.inserted, h.now]
  exact hs

theorem Still.covered (h : Still auth channelId r s s') (hs : Covered auth channelId r s) :
    Covered auth channelId r s' := by
  rw [Covered, h.inserted, h.now, h.slowmode]
  exact hs

theorem Still.spaced (h : Still auth channelId r s s') (hs : Spaced auth channelId r s) :
    Spaced auth channelId r s' := by
  refine ⟨?_, ?_, h.limited hs.limited⟩
  · rw [h.inserted]
    exact hs.apart
  · rw [h.inserted, h.now]
    exact hs.past

/-- a key that is covered and not there is clear -/
theorem Covered.clear (hs : Covered auth channelId r s) (hfree : s.world.slowed channelId auth s.now = false) :
    Clear auth channelId r s := by
  intro t ht
  rcases hs t ht with hclear | ⟨expires, hexpires, hle⟩
  · exact hclear
  · rw [World.slowed, Option.mem_def.1 hexpires] at hfree
    exact hle.trans (not_lt.1 (of_decide_eq_false hfree))

theorem Moves.look_of_checked (h : Moves auth channelId r k s .checked s') :
    k = .before ∧ s' = s ∧ s.world.slowed channelId auth s.now = false := by
  cases h with
  | look hk hfree => exact ⟨rfl, rfl, hfree rfl⟩

theorem Moves.of_inserted (h : Moves auth channelId r k s .inserted s') : k = .checked ∨ k = .inserted := by
  cases h with
  | look hk => exact absurd rfl hk
  | insert => exact .inl rfl
  | update => exact .inr rfl

theorem Moves.spaced (h : Moves auth channelId r k s k' s') (hs : Spaced auth channelId r s)
    (hclear : k = .checked → Clear auth channelId r s) : Spaced auth channelId r s' := by
  cases h with
  | look => exact hs
  | insert hnow hinserted hlimited =>
    have hold := hclear rfl
    refine ⟨?_, ?_, hlimited hs.limited⟩
    · rw [hinserted, List.pairwise_append]
      refine ⟨hs.apart, List.pairwise_singleton _ _, fun t ht t' ht' => ?_⟩
      rw [List.mem_singleton.1 ht']
      exact hold t ht
    · rw [hinserted, hnow]
      intro t ht
      rcases List.mem_append.1 ht with ht | ht
      · exact hs.past t ht
      · exact (congrArg DateTime.millis (List.mem_singleton.1 ht)).le
  | update hstill => exact hstill.spaced hs
  | set hseconds hnow hinserted hset hlimited =>
    refine ⟨?_, ?_, hlimited hs.limited⟩
    · rw [hinserted]
      exact hs.apart
    · rw [hinserted, hnow]
      exact hs.past
  | publish hstill => exact hstill.spaced hs

/-- only an insert makes a difference -/
theorem Moves.clear (h : Moves auth channelId r k s k' s') (hk : k ≠ .checked) (hs : Clear auth channelId r s) :
    Clear auth channelId r s' := by
  cases h with
  | look => exact hs
  | insert => exact absurd rfl hk
  | update hstill => exact hstill.clear hs
  | set hseconds hnow hinserted =>
    rw [Clear, hinserted, hnow]
    exact hs
  | publish hstill => exact hstill.clear hs

/-- a request whose message is inserted goes on to set the key -/
theorem Moves.covered (h : Moves auth channelId r k s k' s') (hs : Spaced auth channelId r s) :
    k' = .inserted ∨ k = .inserted ∧ Covered auth channelId r s' ∨
      k ≠ .inserted ∧ (Covered auth channelId r s → Covered auth channelId r s') := by
  cases h with
  | look => exact .inr (.inr ⟨nofun, id⟩)
  | insert => exact .inl rfl
  | update => exact .inl rfl
  | set hseconds hnow hinserted hset =>
    refine .inr (.inl ⟨rfl, ?_⟩)
    rw [Covered, hinserted, hset]
    refine fun t ht => .inr ⟨_, rfl, ?_⟩
    have hpast := hs.past t ht
    show t.millis + 1000 * r ≤ s.now.millis + 1000 * _
    omega
  | publish hstill => exact .inr (.inr ⟨nofun, hstill.covered⟩)

/-- what happens outside the requests -/
inductive Outside (channelId r : ℤ) where
  /-- time passes -/
  | tick (ms : ℕ)
  /-- others write to the stores; the rate limit of the channel stays at `r` or above -/
  | others (w : World) (limited : r ≤ channelRateLimit w.pg channelId)

variable (auth) in
/-- nothing but `send_message` sets the key of the user -/
def Clocked.outside (s : Clocked) : Outside channelId r → Clocked
  | .tick ms => { s with now := ⟨s.now.millis + ms⟩ }
  | .others w _ =>
    { s with world := { w with
      slowmode := Function.update w.slowmode (channelId, auth) (s.world.slowmode (channelId, auth)) } }

theorem outside_spaced (o : Outside channelId r) (hs : Spaced auth channelId r s) :
    Spaced auth channelId r (s.outside auth o) := by
  cases o with
  | tick ms =>
    refine ⟨hs.apart, fun t ht => (hs.past t ht).trans ?_, hs.limited⟩
    exact Int.le_add_of_nonneg_right (Int.natCast_nonneg ms)
  | others w limited => exact ⟨hs.apart, hs.past, limited⟩

theorem outside_clear (o : Outside channelId r) (hs : Clear auth channelId r s) :
    Clear auth channelId r (s.outside auth o) := by
  cases o with
  | tick ms => exact fun t ht => (hs t ht).trans (Int.le_add_of_nonneg_right (Int.natCast_nonneg ms))
  | others w limited => exact hs

theorem outside_covered (o : Outside channelId r) (hs : Covered auth channelId r s) :
    Covered auth channelId r (s.outside auth o) := by
  cases o with
  | tick ms =>
    exact fun t ht => (hs t ht).imp_left fun h => h.trans (Int.le_add_of_nonneg_right (Int.natCast_nonneg ms))
  | others w limited =>
    rw [Covered, Clocked.outside]
    simp only [Function.update_self]
    exact hs

end Times

/-! ## Side by side -/

abbrev Task := Followed Clocked Command AppError MessageResponse Phase

/-- the request has looked for the key in vain and has not set it -/
def busy (t : Task) : Bool := (t.state = .checked || t.state = .inserted) && !t.rest.finished

theorem busy_iff {t : Task} : busy t = true ↔ (t.state = .checked ∨ t.state = .inserted) ∧ t.rest.finished = false := by
  simp [busy]

section Pools

variable {ι : Type} {auth channelId r : ℤ}

variable (auth) in
/-- no request finds the key missing while another one is busy, and none stops between its insert and its `SET` -/
def Alone (s : Pool ι Task Clocked) : Turn ι (Outside channelId r) → Prop
  | .advance i =>
    (s.task i).rest.pending = some (.slowmodeExists channelId auth) →
      s.shared.world.slowed channelId auth s.shared.now = false → ∀ j, busy (s.task j) = false
  | .interrupt i => (s.task i).state ≠ .inserted
  | .outside _ => True

instance [Fintype ι] (s : Pool ι Task Clocked) : (t : Turn ι (Outside channelId r)) → Decidable (Alone auth s t)
  | .advance i => inferInstanceAs (Decidable ((s.task i).rest.pending = some (.slowmodeExists channelId auth) →
      s.shared.world.slowed channelId auth s.shared.now = false → ∀ j, busy (s.task j) = false))
  | .interrupt i => inferInstanceAs (Decidable ((s.task i).state ≠ .inserted))
  | .outside _ => isTrue trivial

variable (auth channelId r) in
structure Inv (s : Pool ι Task Clocked) : Prop where
  follows : ∀ i, (s.task i).Follows (slowmode auth channelId r) (Limited channelId r)
  spaced : Spaced auth channelId r s.shared
  one : ∀ i j, busy (s.task i) = true → busy (s.task j) = true → i = j
  clear : ∀ i, busy (s.task i) = true → (s.task i).state = .checked → Clear auth channelId r s.shared
  covered : (∃ i, (s.task i).state = .inserted) ∨ Covered auth channelId r s.shared

variable [DecidableEq ι] (e : AppError)

variable (auth channelId r) in
/-- one turn of the requests; `e` is what a failed command reports -/
def taskStep : Pool ι Task Clocked → Turn ι (Outside channelId r) → Pool ι Task Clocked :=
  Pool.step (Followed.next (slowmode auth channelId r) Command.exec) (Followed.stop e) (Clocked.outside auth)

variable (auth channelId r) in
def postStep : Pool ι (Post MessageResponse) Clocked → Turn ι (Outside channelId r) →
    Pool ι (Post MessageResponse) Clocked :=
  Pool.stepProg Command.exec e (Clocked.outside auth)

variable {e} {s : Pool ι Task Clocked} {k k' : Phase} {w : Command} {n : ℕ}

omit [DecidableEq ι] in
/-- a request whose message is inserted is busy -/
theorem Inv.busy_of_inserted (h : Inv auth channelId r s) {i : ι} (hi : (s.task i).state = .inserted) :
    busy (s.task i) = true :=
  busy_iff.2 ⟨.inr hi, (h.follows i).finished_eq_false fun hends => hends hi⟩

theorem eq_of_after_before (h : (slowmode auth channelId r).after .before w n = some k') :
    w = .slowmodeExists channelId auth := by
  cases w with
  | slowmodeExists channel userId =>
    simp only [slowmode] at h
    split_ifs at h with hkey
    · rw [hkey.1, hkey.2]
    · rw [hkey.1, hkey.2]
  | setSlowmode => cases h
  | effect => cases h

/-- the commands of the protocol do not fail -/
theorem exec_of_after {x : Clocked} {err : AppError} (hk : (slowmode auth channelId r).after k w n = some k') :
    w.exec x ≠ .error err := by
  simp only [slowmode] at hk
  split at hk
  · exact nofun
  · exact nofun
  · exact nofun
  · exact nofun
  · exact nofun
  · exact nofun
  · cases hk

/-- one command of a task -/
theorem taskNext_cases {t t' : Task} {x x' : Clocked} (ht : t.Follows (slowmode auth channelId r) (Limited channelId r))
    (hx : Limited channelId r x) (h : t.next (slowmode auth channelId r) Command.exec x = (t', x')) :
    t'.Follows (slowmode auth channelId r) (Limited channelId r) ∧
      ((x' = x ∧ t'.state = t.state ∧ (busy t' = true → busy t = true)) ∨
        t.rest.finished = false ∧ Moves auth channelId r t.state x t'.state x' ∧
          (t.state = .before → t.rest.pending = some (.slowmodeExists channelId auth))) := by
  have hfail : ∀ k w n k' (s : Clocked) e, (slowmode auth channelId r).after k w n = some k' → w.exec s = .error e →
      (slowmode auth channelId r).ends k := fun _ _ _ _ _ _ hk hexec => absurd hexec (exec_of_after hk)
  rcases Followed.next_cases hfail ht hx h with ⟨rfl, hstate, hfollows⟩ | ⟨w, n, hpending, hexec, hafter, hfollows⟩
  · refine ⟨hfollows, .inl ⟨rfl, hstate, fun hbusy => ?_⟩⟩
    rw [busy_iff, hstate] at hbusy
    rw [busy_iff]
    refine ⟨hbusy.1, Bool.eq_false_iff.2 fun hfinished => ?_⟩
    have hrest : t'.rest = t.rest :=
      (congrArg (fun next => next.1.rest) h).symm.trans (congrArg Prod.fst (advance_of_finished hfinished x'))
    rw [hrest, hfinished] at hbusy
    cases hbusy.2
  · refine ⟨hfollows, .inr ⟨?_, moves_of_after hafter hexec, fun hbefore => ?_⟩⟩
    · cases hrest : t.rest with
      | exec w next => rfl
      | _ =>
        rw [hrest] at hpending
        cases hpending
    · rw [hbefore] at hafter
      rw [hpending, eq_of_after_before hafter]

omit [DecidableEq ι] in
/-- one task has changed, and nothing else -/
theorem Inv.idle {s' : Pool ι Task Clocked} (h : Inv auth channelId r s) (i : ι)
    (hothers : ∀ j, j ≠ i → s'.task j = s.task j) (hshared : s'.shared = s.shared)
    (hfollows : (s'.task i).Follows (slowmode auth channelId r) (Limited channelId r))
    (hstate : (s'.task i).state = (s.task i).state) (hbusy : busy (s'.task i) = true → busy (s.task i) = true) :
    Inv auth channelId r s' := by
  have hbusy' : ∀ j, busy (s'.task j) = true → busy (s.task j) = true := by
    intro j hj
    by_cases hij : j = i
    · subst hij
      exact hbusy hj
    · rwa [hothers j hij] at hj
  have hstate' : ∀ j, (s'.task j).state = (s.task j).state := by
    intro j
    by_cases hij : j = i
    · rw [hij]
      exact hstate
    · rw [hothers j hij]
  refine ⟨fun j => ?_, hshared ▸ h.spaced, fun j k hj hk => h.one j k (hbusy' j hj) (hbusy' k hk), fun j hj hk => ?_, ?_⟩
  · by_cases hij : j = i
    · rw [hij]
      exact hfollows
    · rw [hothers j hij]
      exact h.follows j
  · rw [hshared]
    exact h.clear j (hbusy' j hj) ((hstate' j).symm.trans hk)
  · rw [hshared]
    exact h.covered.imp_left fun ⟨j, hj⟩ => ⟨j, (hstate' j).trans hj⟩

omit [DecidableEq ι] in
/-- one task has executed a command -/
theorem Inv.moves {s' : Pool ι Task Clocked} (h : Inv auth channelId r s) (i : ι)
    (hothers : ∀ j, j ≠ i → s'.task j = s.task j)
    (hfollows : (s'.task i).Follows (slowmode auth channelId r) (Limited channelId r))
    (hactive : (s.task i).rest.finished = false)
    (hmoves : Moves auth channelId r (s.task i).state s.shared (s'.task i).state s'.shared)
    (hlook : (s.task i).state = .before → s.shared.world.slowed channelId auth s.shared.now = false →
      ∀ j, busy (s.task j) = false) : Inv auth channelId r s' := by
  have hclear : (s.task i).state = .checked → Clear auth channelId r s.shared := fun hchecked =>
    h.clear i (busy_iff.2 ⟨.inl hchecked, hactive⟩) hchecked
  -- a request that has looked in vain finds nothing to wait for
  have hfound : (s'.task i).state = .checked →
      (∀ j, busy (s.task j) = false) ∧ Clear auth channelId r s'.shared := by
    intro hchecked
    rw [hchecked] at hmoves
    obtain ⟨hbefore, hsame, hfree⟩ := hmoves.look_of_checked
    have hnone := hlook hbefore hfree
    refine ⟨hnone, ?_⟩
    rw [hsame]
    rcases h.covered with ⟨j, hj⟩ | hcovered
    · exact absurd ((hnone j).symm.trans (h.busy_of_inserted hj)) nofun
    · exact hcovered.clear hfree
  -- whoever is busy after a command is the only one
  have hsole : busy (s'.task i) = true → ∀ j, j ≠ i → busy (s.task j) = false := by
    intro hbusy j hj
    rcases (busy_iff.1 hbusy).1 with hchecked | hinserted
    · exact (hfound hchecked).1 j
    · rw [hinserted] at hmoves
      have hmine : busy (s.task i) = true := busy_iff.2 ⟨hmoves.of_inserted, hactive⟩
      exact Bool.eq_false_iff.2 fun hother => hj (h.one j i hother hmine)
  have hone : ∀ j k, busy (s'.task j) = true → busy (s'.task k) = true → j = k :=
    Pool.sole_step (P := fun t => busy t = true) hothers h.one fun hbusy j hj => Bool.eq_false_iff.1 (hsole hbusy j hj)
  refine ⟨fun j => ?_, hmoves.spaced h.spaced hclear, hone, fun j hj hchecked => ?_, ?_⟩
  · by_cases hij : j = i
    · rw [hij]
      exact hfollows
    · rw [hothers j hij]
      exact h.follows j
  · by_cases hij : j = i
    · rw [hij] at hchecked
      exact (hfound hchecked).2
    · rw [hothers j hij] at hj hchecked
      refine hmoves.clear (fun hmine => ?_) (h.clear j hj hchecked)
      exact hij (h.one j i hj (busy_iff.2 ⟨.inl hmine, hactive⟩))
  · rcases hmoves.covered h.spaced with hinserted | ⟨-, hcovered⟩ | ⟨hne, hcovered⟩
    · exact .inl ⟨i, hinserted⟩
    · exact .inr hcovered
    · refine h.covered.imp (fun ⟨j, hj⟩ => ⟨j, ?_⟩) hcovered
      rw [hothers j fun hij => hne (hij ▸ hj)]
      exact hj

theorem advance_inv (i : ι) (hok : Alone auth s (.advance i : Turn ι (Outside channelId r)))
    (h : Inv auth channelId r s) : Inv auth channelId r (taskStep auth channelId r e s (.advance i)) := by
  rcases hnext : (s.task i).next (slowmode auth channelId r) Command.exec s.shared with ⟨t', x⟩
  obtain ⟨hfollows, hcases⟩ := taskNext_cases (h.follows i) h.spaced.limited hnext
  have hothers : ∀ j, j ≠ i → (taskStep auth channelId r e s (.advance i)).task j = s.task j := fun _ =>
    Pool.advance_other
  have hown : (taskStep auth channelId r e s (.advance i)).task i = t' := Pool.advance_own hnext
  have hshared : (taskStep auth channelId r e s (.advance i)).shared = x := Pool.advance_shared hnext
  rw [← hown] at hfollows hcases
  rw [← hshared] at hcases
  rcases hcases with ⟨hsame, hstate, hbusy⟩ | ⟨hactive, hmoves, hpending⟩
  · exact h.idle i hothers hsame hfollows hstate hbusy
  · exact h.moves i hothers hfollows hactive hmoves fun hbefore => hok (hpending hbefore)

theorem taskStep_inv (s : Pool ι Task Clocked) (t : Turn ι (Outside channelId r)) (hok : Alone auth s t)
    (h : Inv auth channelId r s) : Inv auth channelId r (taskStep auth channelId r e s t) := by
  cases t with
  | advance i => exact advance_inv i hok h
  | interrupt i =>
    have hothers : ∀ j, j ≠ i → (taskStep auth channelId r e s (.interrupt i)).task j = s.task j := fun _ =>
      Pool.interrupt_other
    have hown : (taskStep auth channelId r e s (.interrupt i)).task i = (s.task i).stop e := Pool.interrupt_own
    refine h.idle i hothers rfl ?_ ?_ ?_
    · rw [hown]
      exact follows_interrupt (h.follows i) hok e
    · rw [hown]
      rfl
    · rw [hown, busy_iff]
      rintro ⟨-, hfinished⟩
      exact absurd ((finished_interrupt (s.task i).rest e).symm.trans hfinished) nofun
  | outside o =>
    exact ⟨h.follows, outside_spaced o h.spaced, h.one, fun i hi hk => outside_clear o (h.clear i hi hk),
      h.covered.imp_right (outside_covered o)⟩

/-- requests of one user for one channel, and no messages yet -/
def posts (auth channelId : ℤ) (body : ι → SendMessageRequest) (messageId : ι → Snowflake) (w : World)
    (now : DateTime) : Pool ι Task Clocked :=
  ⟨fun i => ⟨sendMessage auth channelId (body i) (messageId i), .before⟩, ⟨w, now, fun _ => []⟩⟩

omit [DecidableEq ι] in
theorem posts_inv {body : ι → SendMessageRequest} {messageId : ι → Snowflake} {w : World} {now : DateTime} (hr : 0 < r)
    (hlimit : r ≤ channelRateLimit w.pg channelId) : Inv auth channelId r (posts auth channelId body messageId w now) :=
  ⟨fun _ => follows_sendMessage hr, ⟨List.Pairwise.nil, nofun, hlimit⟩, nofun, nofun, .inr nofun⟩

/-- **Slowmode.** In a run of turns that are alone, any two messages that the user inserts into the channel are at least
`r` seconds apart. -/
theorem slowmode_kept (e : AppError) (hr : 0 < r) (body : ι → SendMessageRequest) (messageId : ι → Snowflake) (w : World)
    (now : DateTime) (hlimit : r ≤ channelRateLimit w.pg channelId) (ts : List (Turn ι (Outside channelId r)))
    (h : Every (taskStep auth channelId r e) (Alone auth) (posts auth channelId body messageId w now) ts) :
    let calls := run (postStep auth channelId r e)
      ⟨fun i => sendMessage auth channelId (body i) (messageId i), ⟨w, now, fun _ => []⟩⟩ ts
    (calls.shared.inserted (channelId, auth)).Pairwise fun t t' => t.millis + 1000 * r ≤ t'.millis := by
  intro calls
  have hcalls : calls = (run (taskStep auth channelId r e) (posts auth channelId body messageId w now) ts).map
      Followed.rest := Followed.run_rest e (Clocked.outside auth) (posts auth channelId body messageId w now) ts
  have hinv : Inv auth channelId r (run (taskStep auth channelId r e) (posts auth channelId body messageId w now) ts) :=
    run_inv_of_every taskStep_inv (posts_inv hr hlimit) h
  rw [hcalls]
  exact hinv.spaced.apart

end Pools

/-! ## Two messages -/

/-- channel 101 has a rate limit of five seconds -/
def slow : World :=
  { joined with
    pg := { joined.pg with
      channels := joined.pg.channels.updateWhere (fun c => c.id = 101) (fun c => { c with rateLimit := 5 }) fun _ => rfl } }

def twice : Fin 2 → SendMessageRequest := fun _ => hello

def twoIds : Fin 2 → Snowflake := ![⟨1⟩, ⟨2⟩]

/-- the second request looks once the key of the first has expired -/
def inTurn : List (Turn (Fin 2) (Outside 101 5)) :=
  List.replicate 14 (.advance 0) ++ .outside (.tick 5000) :: List.replicate 14 (.advance 1)

theorem slowmode_kept_inTurn :
    let calls := Core.run (postStep 1 101 5 (.notFound ""))
      ⟨fun i => sendMessage 1 101 (twice i) (twoIds i), ⟨slow, ⟨0⟩, fun _ => []⟩⟩ inTurn
    (calls.shared.inserted (101, 1)).Pairwise fun t t' => t.millis + 1000 * 5 ≤ t'.millis :=
  slowmode_kept (.notFound "") (by decide) twice twoIds slow ⟨0⟩ (by decide) inTurn (by decide)

/-- both requests look before either has set the key -/
def together : List (Turn (Fin 2) (Outside 101 5)) := (List.replicate 14 [.advance 0, .advance 1]).flatten

/-- **Two messages at once.** Neither request sees the key of the other. -/
theorem two_at_once :
    let calls := Core.run (postStep 1 101 5 (.notFound ""))
      ⟨fun i => sendMessage 1 101 (twice i) (twoIds i), ⟨slow, ⟨0⟩, fun _ => []⟩⟩ together
    channelRateLimit slow.pg 101 = 5 ∧ calls.shared.inserted (101, 1) = [⟨0⟩, ⟨0⟩] ∧
      ¬ (calls.shared.inserted (101, 1)).Pairwise fun t t' => t.millis + 1000 * 5 ≤ t'.millis := by
  have hboth : (Core.run (postStep 1 101 5 (.notFound ""))
      ⟨fun i => sendMessage 1 101 (twice i) (twoIds i), ⟨slow, ⟨0⟩, fun _ => []⟩⟩ together).shared.inserted (101, 1) =
        [⟨0⟩, ⟨0⟩] := by decide
  refine ⟨by decide, hboth, ?_⟩
  rw [hboth]
  decide

end Lumiere.Routes.Slowmode
