/-
Reactions as a client sees them (`lumiere-server/src/routes/reactions.rs`). Every change is announced on the subject of
the channel, by a statement of its own, and a client that knows the reactions of some time follows the announcements. A
failed announcement is only logged: a request that is cut off before it leaves the same behind.

- `reactions_followed`: if requests about a reaction take turns, and none is cut off before its announcement, the client
  shows what is stored whenever no such request is in progress.
- `reactions_crossed`: a client keeps showing a reaction that a moderator has removed.
-/
import Lumiere.Core.Follower
import Lumiere.Routes.MessageRequests

namespace Lumiere.Routes.Reactions

open Lumiere.Core Lumiere.Core.Prog Lumiere.Models Lumiere.Db

/-! ## The store and the announcements -/

inductive BoardEvent where
  | published (p : Publication)
  /-- `MESSAGE_REACTION_REMOVE_ALL` -/
  | removeAll (channelId messageId : ℤ)
  /-- `MESSAGE_REACTION_REMOVE_EMOJI` -/
  | removeEmoji (channelId messageId : ℤ) (emoji : String)
deriving DecidableEq, Repr

structure Board where
  world : World
  /-- what is published, oldest first -/
  events : List BoardEvent

inductive BoardWrite where
  | effect (e : Effect)
  /-- `WHERE channel_id = ? AND message_id = ?` -/
  | deleteAllReactions (channelId messageId : ℤ)
  /-- `WHERE channel_id = ? AND message_id = ? AND emoji = ?` -/
  | deleteEmojiReactions (channelId messageId : ℤ) (emoji : String)
  | announce (e : BoardEvent)
deriving DecidableEq, Repr

def Board.deleteReactions (s : Board) (p : Reaction → Bool) : Board :=
  { s with world := { s.world with
      chat := { s.world.chat with reactions := s.world.chat.reactions.deleteWhere p } } }

def BoardWrite.exec : BoardWrite → Board → Except AppError (ℕ × Board)
  | .effect e, s => (e.exec s.world).map fun r =>
    (r.1, { world := r.2, events := s.events ++
      match e with
      | .publish p => [.published p]
      | _ => [] })
  | .deleteAllReactions channelId messageId, s =>
    .ok (0, s.deleteReactions fun r => r.channelId = channelId && r.messageId = messageId)
  | .deleteEmojiReactions channelId messageId emoji, s =>
    .ok (0, s.deleteReactions fun r => r.channelId = channelId && r.messageId = messageId && r.emoji = emoji)
  | .announce e, s => .ok (0, { s with events := s.events ++ [e] })

abbrev BoardHandler := Prog Board BoardWrite AppError

def onWorld {α : Type} (p : Route α) : BoardHandler α := p.lift Board.world .effect

/-! ## The handlers -/

def removeUserReaction (auth channelId messageId : ℤ) (emoji : String) (userId : ℤ) : Route Unit := do
  refuseEmoji emoji
  let _ ← onPg (checkChannelPermission channelId auth .manageMessages)
  execute (.cql (.deleteReaction channelId messageId emoji userId))
  execute (.publish ⟨channelMessages channelId, .messageReactionRemove channelId messageId userId emoji⟩)

def removeAllReactions (auth channelId messageId : ℤ) : BoardHandler Unit := do
  let _ ← onWorld (onPg (checkChannelPermission channelId auth .manageMessages))
  execute (.deleteAllReactions channelId messageId)
  execute (.announce (.removeAll channelId messageId))

def removeAllEmojiReactions (auth channelId messageId : ℤ) (emoji : String) : BoardHandler Unit := do
  onWorld (refuseEmoji emoji)
  let _ ← onWorld (onPg (checkChannelPermission channelId auth .manageMessages))
  execute (.deleteEmojiReactions channelId messageId emoji)
  execute (.announce (.removeEmoji channelId messageId emoji))

/-! ## Requests side by side -/

/-- the announcement of a single reaction -/
def Event.isReaction : Event → Bool
  | .messageReactionAdd .. | .messageReactionRemove .. => true
  | _ => false

/-- only the handlers of reactions write or announce them -/
def isOfReactions : Effect → Bool
  | .cql (.insertReaction _) | .cql (.deleteReaction ..) => true
  | .publish p => Event.isReaction p.event
  | _ => false

inductive Request where
  | addReaction (auth channelId messageId : ℤ) (emoji : String) (now : DateTime)
  | removeOwnReaction (auth channelId messageId : ℤ) (emoji : String)
  | removeUserReaction (auth channelId messageId : ℤ) (emoji : String) (userId : ℤ)
  | removeAllReactions (auth channelId messageId : ℤ)
  | removeAllEmojiReactions (auth channelId messageId : ℤ) (emoji : String)
  /-- a statement of some other request -/
  | other (e : Effect) (h : isOfReactions e = false)

def start : Request → BoardHandler Unit
  | .addReaction auth channelId messageId emoji now => onWorld (Routes.addReaction auth channelId messageId emoji now)
  | .removeOwnReaction auth channelId messageId emoji =>
    onWorld (Routes.removeOwnReaction auth channelId messageId emoji)
  | .removeUserReaction auth channelId messageId emoji userId =>
    onWorld (Reactions.removeUserReaction auth channelId messageId emoji userId)
  | .removeAllReactions auth channelId messageId => Reactions.removeAllReactions auth channelId messageId
  | .removeAllEmojiReactions auth channelId messageId emoji =>
    Reactions.removeAllEmojiReactions auth channelId messageId emoji
  | .other e _ => execute (.effect e)

/-- what a request announces, if it succeeds -/
def Request.announces : Request → Option BoardEvent
  | .addReaction auth channelId messageId emoji _ =>
    some (.published ⟨channelMessages channelId, .messageReactionAdd channelId messageId auth emoji⟩)
  | .removeOwnReaction auth channelId messageId emoji =>
    some (.published ⟨channelMessages channelId, .messageReactionRemove channelId messageId auth emoji⟩)
  | .removeUserReaction _ channelId messageId emoji userId =>
    some (.published ⟨channelMessages channelId, .messageReactionRemove channelId messageId userId emoji⟩)
  | .removeAllReactions _ channelId messageId => some (.removeAll channelId messageId)
  | .removeAllEmojiReactions _ channelId messageId emoji => some (.removeEmoji channelId messageId emoji)
  | .other _ _ => none

def cutOff : AppError := .internal "the request was cut off"

abbrev Requests := Calls Request Board BoardWrite AppError

def init (w : World) : Requests := ⟨[], ⟨w, []⟩⟩

abbrev step : Requests → Move Request → Requests := Calls.step start BoardWrite.exec cutOff

/-! ## What a client shows -/

/-- a reaction of a user -/
structure ReactionKey where
  channelId : ℤ
  messageId : ℤ
  emoji : String
  userId : ℤ
deriving DecidableEq, Repr

/-- what an event says of a reaction: that it is there, or that it is not -/
def BoardEvent.reports (k : ReactionKey) : BoardEvent → Option Bool
  | .published ⟨_, .messageReactionAdd channelId messageId userId emoji⟩ =>
    if k = ⟨channelId, messageId, emoji, userId⟩ then some true else none
  | .published ⟨_, .messageReactionRemove channelId messageId userId emoji⟩ =>
    if k = ⟨channelId, messageId, emoji, userId⟩ then some false else none
  | .published _ => none
  | .removeAll channelId messageId => if k.channelId = channelId ∧ k.messageId = messageId then some false else none
  | .removeEmoji channelId messageId emoji =>
    if k.channelId = channelId ∧ k.messageId = messageId ∧ k.emoji = emoji then some false else none

/-- what a client shows that knew `known` and has heard the events -/
def shown (k : ReactionKey) (known : Bool) (events : List BoardEvent) : Bool :=
  events.foldl (fun b e => (e.reports k).getD b) known

def isOf (k : ReactionKey) (r : Reaction) : Bool := k = ⟨r.channelId, r.messageId, r.emoji, r.userId⟩

def stored (k : ReactionKey) (w : World) : Bool := w.chat.reactions.any (isOf k)

/-- the request announces something of the reaction -/
def About (k : ReactionKey) (r : Request) : Prop := (r.announces.bind (BoardEvent.reports k)).isSome = true

instance (k : ReactionKey) : DecidablePred (About k) := fun _ => inferInstanceAs (Decidable (_ = true))

/-! ## The statements -/

/-- what a write is to be announced as -/
def opens : BoardWrite → Option BoardEvent
  | .effect (.cql (.insertReaction row)) =>
    some (.published ⟨channelMessages row.channelId,
      .messageReactionAdd row.channelId row.messageId row.userId row.emoji⟩)
  | .effect (.cql (.deleteReaction channelId messageId emoji userId)) =>
    some (.published ⟨channelMessages channelId, .messageReactionRemove channelId messageId userId emoji⟩)
  | .deleteAllReactions channelId messageId => some (.removeAll channelId messageId)
  | .deleteEmojiReactions channelId messageId emoji => some (.removeEmoji channelId messageId emoji)
  | _ => none

/-- what a statement announces of reactions -/
def closes : BoardWrite → Option BoardEvent
  | .effect (.publish p) => if Event.isReaction p.event then some (.published p) else none
  | .announce e => some e
  | _ => none

variable {k : ReactionKey} {known : Bool} {s t : Board} {n : ℕ}

theorem shown_snoc (events : List BoardEvent) (e : BoardEvent) :
    shown k known (events ++ [e]) = (e.reports k).getD (shown k known events) := by
  simp [shown, List.foldl_append]

/-- the reactions that a deletion leaves -/
theorem any_deleteWhere {α κ : Type} {key : α → κ} (table : Table key) (p q : α → Bool) :
    (table.deleteWhere p).any q = table.any fun a => q a && !p a := by
  unfold Table.any Table.deleteWhere
  rw [List.any_filter]
  congr 1
  funext a
  exact Bool.and_comm _ _

/-- a deletion that takes all rows of the reaction, or none -/
theorem any_delete {table : Table fun r : Reaction => (r.channelId, r.messageId, r.emoji, r.userId)}
    {p : Reaction → Bool} (c : Prop) [Decidable c] (h : ∀ r, isOf k r = true → (p r = true ↔ c)) :
    (table.deleteWhere p).any (isOf k) = (if c then some false else none).getD (table.any (isOf k)) := by
  have hany : (fun r => isOf k r && !p r) = fun r => isOf k r && !decide c := by
    funext r
    cases hr : isOf k r
    · rfl
    · rw [Bool.eq_iff_iff.mpr ((h r hr).trans decide_eq_true_iff.symm)]
  rw [any_deleteWhere, hany]
  by_cases hc : c <;> simp [hc, Table.any]

theorem isOf_iff {r : Reaction} : isOf k r = true ↔ k = ⟨r.channelId, r.messageId, r.emoji, r.userId⟩ := by
  simp [isOf]

theorem any_insert (table : Table fun r : Reaction => (r.channelId, r.messageId, r.emoji, r.userId)) (row : Reaction) :
    ((table.deleteWhere fun r => r.channelId = row.channelId && r.messageId = row.messageId && r.emoji = row.emoji &&
        r.userId = row.userId).insertIgnore row).any (isOf k) =
      (if k = ⟨row.channelId, row.messageId, row.emoji, row.userId⟩ then some true else none).getD
        (table.any (isOf k)) := by
  generalize hrest : (table.deleteWhere fun r => r.channelId = row.channelId && r.messageId = row.messageId &&
    r.emoji = row.emoji && r.userId = row.userId) = rest
  have hfree : ∀ r ∈ rest, (r.channelId, r.messageId, r.emoji, r.userId) ≠
      (row.channelId, row.messageId, row.emoji, row.userId) := by
    intro r hr heq
    simp only [Prod.mk.injEq] at heq
    rw [← hrest] at hr
    have hkept := (List.mem_filter.mp hr).2
    simp [heq] at hkept
  have hrows := Table.rows_insert? (Table.insert?_of_forall_ne hfree)
  rw [Table.any, hrows, List.any_append]
  by_cases hk : k = ⟨row.channelId, row.messageId, row.emoji, row.userId⟩
  · have hrow : isOf k row = true := isOf_iff.mpr hk
    rw [if_pos hk, List.any_cons, hrow]
    simp
  · have hrow : isOf k row = false := by
      rw [Bool.eq_false_iff, ne_eq, isOf_iff]
      exact hk
    have hsame : rest.any (isOf k) = table.any (isOf k) := by
      rw [← hrest, any_delete (k = ⟨row.channelId, row.messageId, row.emoji, row.userId⟩), if_neg hk, Option.getD_none]
      intro r hr
      obtain rfl := isOf_iff.mp hr
      simp [and_assoc]
    rw [← hsame]
    simp [hk, hrow, Table.any]

/-- a write stores what it is to be announced as -/
theorem exec_opens {w : BoardWrite} {e : BoardEvent} (he : opens w = some e) (h : w.exec s = .ok (n, t)) :
    t.events = s.events ∧ stored k t.world = (e.reports k).getD (stored k s.world) := by
  cases w with
  | effect f =>
    cases f with
    | cql q =>
      cases q with
      | insertReaction row =>
        obtain rfl := Option.some.inj he
        obtain ⟨-, rfl⟩ := Prod.mk.inj (Except.ok.inj h)
        exact ⟨List.append_nil _, any_insert _ row⟩
      | deleteReaction channelId messageId emoji userId =>
        obtain rfl := Option.some.inj he
        obtain ⟨-, rfl⟩ := Prod.mk.inj (Except.ok.inj h)
        refine ⟨List.append_nil _, any_delete (k = ⟨channelId, messageId, emoji, userId⟩) ?_⟩
        intro r hr
        obtain rfl := isOf_iff.mp hr
        simp [and_assoc]
      | _ => cases he
    | _ => cases he
  | deleteAllReactions channelId messageId =>
    obtain rfl := Option.some.inj he
    obtain ⟨-, rfl⟩ := Prod.mk.inj (Except.ok.inj h)
    refine ⟨rfl, any_delete (k.channelId = channelId ∧ k.messageId = messageId) ?_⟩
    intro r hr
    obtain rfl := isOf_iff.mp hr
    simp
  | deleteEmojiReactions channelId messageId emoji =>
    obtain rfl := Option.some.inj he
    obtain ⟨-, rfl⟩ := Prod.mk.inj (Except.ok.inj h)
    refine ⟨rfl, any_delete (k.channelId = channelId ∧ k.messageId = messageId ∧ k.emoji = emoji) ?_⟩
    intro r hr
    obtain rfl := isOf_iff.mp hr
    simp [and_assoc]
  | announce e' => cases he

/-- an announcement stores nothing -/
theorem exec_closes {w : BoardWrite} {e : BoardEvent} (he : closes w = some e) (h : w.exec s = .ok (n, t)) :
    t.events = s.events ++ [e] ∧ t.world.chat = s.world.chat := by
  cases w with
  | effect f =>
    cases f with
    | publish p =>
      rw [closes] at he
      split_ifs at he
      obtain rfl := Option.some.inj he
      obtain ⟨-, rfl⟩ := Prod.mk.inj (Except.ok.inj h)
      exact ⟨rfl, rfl⟩
    | _ => cases he
  | announce e' =>
    obtain rfl := Option.some.inj he
    obtain ⟨-, rfl⟩ := Prod.mk.inj (Except.ok.inj h)
    exact ⟨rfl, rfl⟩
  | _ => cases he

theorem reports_of_not_reaction {p : Publication} (h : Event.isReaction p.event = false) :
    (BoardEvent.published p).reports k = none := by
  obtain ⟨subject, event⟩ := p
  cases event with
  | messageReactionAdd channelId messageId userId emoji => cases h
  | messageReactionRemove channelId messageId userId emoji => cases h
  | _ => rfl

/-- other effects leave the reactions and their announcements alone -/
theorem effect_other {f : Effect} (hopens : opens (.effect f) = none) (hcloses : closes (.effect f) = none)
    (h : BoardWrite.exec (.effect f) s = .ok (n, t)) :
    t.world.chat.reactions = s.world.chat.reactions ∧
      (t.events = s.events ∨
        ∃ p : Publication, Event.isReaction p.event = false ∧ t.events = s.events ++ [.published p]) := by
  cases f with
  | sql q =>
    obtain ⟨r, hexec, heq⟩ := map_eq_ok.mp h
    obtain ⟨q', -, hr⟩ := map_eq_ok.mp hexec
    obtain ⟨-, rfl⟩ := Prod.mk.inj heq
    exact ⟨by rw [← hr], .inl (List.append_nil _)⟩
  | publish p =>
    obtain ⟨-, rfl⟩ := Prod.mk.inj (Except.ok.inj h)
    refine ⟨rfl, .inr ⟨p, ?_, rfl⟩⟩
    rw [closes] at hcloses
    split_ifs at hcloses with hreaction
    exact Bool.eq_false_iff.mpr hreaction
  | cql q =>
    obtain ⟨-, rfl⟩ := Prod.mk.inj (Except.ok.inj h)
    refine ⟨?_, .inl (List.append_nil _)⟩
    cases q with
    | insertReaction row => cases hopens
    | deleteReaction channelId messageId emoji userId => cases hopens
    | _ => rfl
  | _ =>
    obtain ⟨-, rfl⟩ := Prod.mk.inj (Except.ok.inj h)
    exact ⟨rfl, .inl (List.append_nil _)⟩

/-- other statements neither store nor say anything of a reaction -/
theorem exec_other {w : BoardWrite} (hopens : opens w = none) (hcloses : closes w = none)
    (h : w.exec s = .ok (n, t)) :
    shown k known t.events = shown k known s.events ∧ stored k t.world = stored k s.world := by
  cases w with
  | effect f =>
    obtain ⟨hreactions, hevents⟩ := effect_other hopens hcloses h
    refine ⟨?_, by rw [stored, hreactions, stored]⟩
    obtain hsame | ⟨p, hp, hsnoc⟩ := hevents
    · rw [hsame]
    · rw [hsnoc, shown_snoc, reports_of_not_reaction hp, Option.getD_none]
  | deleteAllReactions channelId messageId => cases hopens
  | deleteEmojiReactions channelId messageId emoji => cases hopens
  | announce e => cases hcloses

/-- a statement that neither writes nor announces anything of the reaction -/
theorem exec_silent {w : BoardWrite} (hopens : ∀ e ∈ opens w, e.reports k = none)
    (hcloses : ∀ e ∈ closes w, e.reports k = none) (h : w.exec s = .ok (n, t)) :
    shown k known t.events = shown k known s.events ∧ stored k t.world = stored k s.world := by
  cases ho : opens w with
  | some e =>
    obtain ⟨hevents, hstored⟩ := exec_opens (k := k) ho h
    rw [hopens e ho, Option.getD_none] at hstored
    exact ⟨by rw [hevents], hstored⟩
  | none =>
    cases hc : closes w with
    | some e =>
      obtain ⟨hevents, hchat⟩ := exec_closes hc h
      refine ⟨?_, by rw [stored, hchat, stored]⟩
      rw [hevents, shown_snoc, hcloses e hc, Option.getD_none]
    | none => exact exec_other ho hc h

/-- a publication is only logged when it fails -/
theorem exec_of_closes (w : BoardWrite) (e : BoardEvent) (s : Board) (h : closes w = some e) :
    ∃ r, w.exec s = .ok r := by
  cases w with
  | effect f =>
    cases f with
    | publish p => exact ⟨_, rfl⟩
    | _ => cases h
  | announce e' => exact ⟨_, rfl⟩
  | _ => cases h

/-! ## The requests -/

/-- the client shows what is stored -/
def InStep (k : ReactionKey) (known : Bool) (s : Board) : Prop := shown k known s.events = stored k s.world

/-- the event says what is stored -/
def Accurate (k : ReactionKey) (e : BoardEvent) (s : Board) : Prop := e.reports k = some (stored k s.world)

abbrev Keeps (k : ReactionKey) (known : Bool) : Request → BoardWrite → Prop :=
  Calls.Keeps (About k) opens closes (InStep k known) (Accurate k) BoardWrite.exec

theorem neutral {w : BoardWrite} (hopens : ∀ e ∈ opens w, e.reports k = none)
    (hcloses : ∀ e ∈ closes w, e.reports k = none) :
    Calls.Neutral (InStep k known) (Accurate k) BoardWrite.exec w := by
  intro s n t h
  obtain ⟨hshown, hstored⟩ : shown k known t.events = shown k known s.events ∧ stored k t.world = stored k s.world :=
    exec_silent hopens hcloses h
  constructor
  · intro hright
    rw [InStep, hshown, hstored]
    exact hright
  · intro e hahead
    rw [Accurate, hstored]
    exact hahead

theorem keeps {r : Request} {w : BoardWrite} (hopens : ∀ e ∈ opens w, r.announces = some e)
    (hcloses : ∀ e ∈ closes w, r.announces = some e) : Keeps k known r w := by
  constructor
  · intro hnot
    have hreports : ∀ e, r.announces = some e → e.reports k = none := by
      intro e he
      by_contra hsome
      exact hnot (by rw [About, he, Option.bind_some, Option.isSome_iff_ne_none]; exact hsome)
    exact neutral (fun e he => hreports e (hopens e he)) fun e he => hreports e (hcloses e he)
  · intro habout e he s n t h
    have hsome : (e.reports k).isSome = true := by
      rw [About, hopens e he] at habout
      exact habout
    obtain ⟨b, hb⟩ := Option.isSome_iff_exists.mp hsome
    rw [Accurate, (exec_opens he h).2, hb, Option.getD_some]
  · intro _ e he s n t hahead h
    obtain ⟨hevents, hchat⟩ := exec_closes he h
    have hstored : stored k t.world = stored k s.world := by rw [stored, hchat, stored]
    rw [InStep, hevents, shown_snoc, hahead, Option.getD_some, hstored]
  · intro _ ho hc
    exact neutral (by simp [ho]) (by simp [hc])

/-- a write and its announcement, as the last statements of a request -/
theorem paired_change {σ' ω' : Type} {g : ω' → BoardWrite} {r : Request} {e : BoardEvent} {w a : ω'}
    (hr : r.announces = some e) (hw : opens (g w) = some e) (hw' : closes (g w) = none) (ha : closes (g a) = some e)
    (ha' : opens (g a) = none) :
    (do execute w; execute a : Prog σ' ω' AppError Unit).Paired (fun w => Keeps k known r (g w))
      (fun w => opens (g w)) (fun w => closes (g w)) none := by
  refine paired_execute_bind (keeps ?_ ?_) hw' ⟨keeps ?_ ?_, ha.trans hw.symm, fun _ => ha'⟩
  · intro e' he'
    rw [hr, ← hw, he']
  · simp [hw']
  · simp [ha']
  · intro e' he'
    rw [hr, ← ha, he']

theorem paired_check {α : Type} {r : Request} {p : Route Unit} {q : Route α} {f : α → Route Unit}
    (hp : p.ReadOnly) (hq : q.ReadOnly)
    (hf : ∀ a, (f a).Paired (fun w => Keeps k known r (.effect w)) (fun w => opens (.effect w))
      (fun w => closes (.effect w)) none) :
    (onWorld (do p; let a ← q; f a)).Paired (Keeps k known r) opens closes none := by
  apply paired_lift
  apply paired_bind hp.paired
  intro _
  exact paired_bind hq.paired hf

theorem readOnly_refuseEmoji (emoji : String) : (refuseEmoji emoji).ReadOnly := issues_failIf _ _

theorem closes_of_not_reaction {f : Effect} (h : isOfReactions f = false) :
    opens (.effect f) = none ∧ closes (.effect f) = none := by
  cases f with
  | cql q =>
    cases q with
    | insertReaction row => cases h
    | deleteReaction channelId messageId emoji userId => cases h
    | _ => exact ⟨rfl, rfl⟩
  | publish p =>
    refine ⟨rfl, ?_⟩
    rw [closes, if_neg]
    rw [Bool.not_eq_true]
    exact h
  | _ => exact ⟨rfl, rfl⟩

theorem paired_start (k : ReactionKey) (known : Bool) (r : Request) :
    (start r).Paired (Keeps k known r) opens closes none := by
  cases r with
  | addReaction auth channelId messageId emoji now =>
    apply paired_check (readOnly_refuseEmoji emoji) readOnly_check
    intro _
    exact paired_change rfl rfl rfl rfl rfl
  | removeOwnReaction auth channelId messageId emoji =>
    apply paired_check (readOnly_refuseEmoji emoji) readOnly_check
    intro _
    exact paired_change rfl rfl rfl rfl rfl
  | removeUserReaction auth channelId messageId emoji userId =>
    apply paired_check (readOnly_refuseEmoji emoji) readOnly_check
    intro _
    exact paired_change rfl rfl rfl rfl rfl
  | removeAllReactions auth channelId messageId =>
    apply paired_bind (ReadOnly.paired (issues_lift readOnly_check))
    intro _
    exact paired_change (g := id) rfl rfl rfl rfl rfl
  | removeAllEmojiReactions auth channelId messageId emoji =>
    apply paired_bind (ReadOnly.paired (issues_lift (readOnly_refuseEmoji emoji)))
    intro _
    apply paired_bind (ReadOnly.paired (issues_lift readOnly_check))
    intro _
    exact paired_change (g := id) rfl rfl rfl rfl rfl
  | other f h =>
    obtain ⟨hopens, hcloses⟩ := closes_of_not_reaction h
    refine paired_execute (keeps ?_ ?_) hopens hcloses
    · simp [hopens]
    · simp [hcloses]

/-! ## Clients -/

/-- **A client that follows the announcements shows what is stored,** whenever no request about the reaction is in
progress. -/
theorem reactions_followed (w : World) (k : ReactionKey) {moves : List (Move Request)}
    (hturn : Every step (Calls.InTurn (About k) closes) (init w) moves)
    (hidle : (run step (init w) moves).Idle (About k)) :
    shown k (stored k w) (run step (init w) moves).shared.events = stored k (run step (init w) moves).shared.world := by
  have hinit : (init w).Following (About k) opens closes (InStep k (stored k w)) (Accurate k) BoardWrite.exec := by
    refine ⟨by simp [init], by simp [init], by simp [init], .inl rfl⟩
  have hrun := run_inv_of_every (fun s o hturn hs =>
    Calls.following_step exec_of_closes (paired_start k (stored k w)) hs hturn) hinit hturn
  exact hrun.right hidle

/-- a reaction of user 2 to message 7 -/
def liked : ReactionKey := ⟨101, 7, "+1", 2⟩

/-- user 2 reacts -/
def react : Move Request := .issue (.addReaction 2 101 7 "+1" ⟨0⟩)

/-- the owner removes the reaction -/
def clear : Move Request := .issue (.removeUserReaction 1 101 7 "+1" 2)

/-- one request after the other, beside one about another emoji -/
def inTurns : List (Move Request) :=
  [react, .issue (.removeAllEmojiReactions 1 101 7 "-1"), .advance 0, .advance 0, .advance 1, .advance 0, .advance 0,
    .advance 1, .advance 1, .advance 0, .advance 1, .advance 0, clear, .advance 2, .advance 2, .advance 2, .advance 2,
    .advance 2]

/-- the reaction is stored, and then removed -/
theorem reactions_followed_inTurns :
    shown liked (stored liked joined) (run step (init joined) inTurns).shared.events =
        stored liked (run step (init joined) inTurns).shared.world ∧
      stored liked (run step (init joined) (inTurns.take 12)).shared.world = true ∧
      stored liked (run step (init joined) inTurns).shared.world = false :=
  ⟨reactions_followed joined liked (by decide) (by decide), by decide, by decide⟩

/-- the owner removes the reaction before it is announced -/
def crossed : List (Move Request) :=
  [react, .advance 0, .advance 0, .advance 0, .advance 0, .advance 0, clear, .advance 1, .advance 1, .advance 1,
    .advance 1, .advance 1, .advance 0]

/-- the client keeps showing a reaction that the owner has removed -/
theorem reactions_crossed :
    (run step (init joined) crossed).Quiet ∧ stored liked (run step (init joined) crossed).shared.world = false ∧
      shown liked (stored liked joined) (run step (init joined) crossed).shared.events = true := by
  decide

end Lumiere.Routes.Reactions
