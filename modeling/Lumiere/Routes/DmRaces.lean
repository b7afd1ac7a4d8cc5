/-
Two users who open direct messages with each other at the same time. `create_dm_channel` looks for a channel of the two,
and then inserts the channel and its two recipients by three statements; nothing in the tables keeps a second request
from doing the same in between.

- `dmStage_advance`, `dmStage_programs`: a request in progress, named by what it sends next.
- `one_dm`: there is at most one channel of the two, and every request that succeeds returns it, as long as no request
  looks for the channel in vain while another one is inserting it.
- `two_dms`: two requests that look before either has inserted.
-/
import Lumiere.Core.Pool
import Lumiere.Routes.DirectMessages

namespace Lumiere.Routes

open Lumiere.Core Lumiere.Core.Prog Lumiere.Models Lumiere.Db

/-! ## Requests in progress -/

inductive DmStage where
  | blocked (r : DmRequest) (recipientId : ℤ)
  | existing (r : DmRequest) (recipientId : ℤ)
  | profile (r : DmRequest) (recipientId channelId : ℤ)
  | channel (r : DmRequest) (recipientId : ℤ)
  | self (r : DmRequest) (recipientId : ℤ)
  | other (r : DmRequest) (recipientId : ℤ)
  | profiles (r : DmRequest) (recipientId : ℤ)
  | ok (response : DmResponse)
  | failed (e : AppError)
deriving DecidableEq, Repr

namespace DmStage

/-- the end of a request that has inserted its recipients -/
def inserted (r : DmRequest) (recipientId : ℤ) : DmHandler DmResponse := do
  let recipients ← select (dmProfiles r.auth [recipientId])
  pure (.created ⟨r.channelId, dmType [recipientId], recipients, none, none, none⟩)

/-- what is left of the request -/
def prog : DmStage → DmHandler DmResponse
  | .blocked r recipientId =>
    findDm r.auth [recipientId] >>= answerDm r.auth r.channelId r.now [recipientId]
  | .existing r recipientId => do
    let existing ← select (existingDm r.auth recipientId)
    foundDm recipientId existing >>= answerDm r.auth r.channelId r.now [recipientId]
  | .profile r recipientId channelId =>
    foundDm recipientId (some channelId) >>= answerDm r.auth r.channelId r.now [recipientId]
  | .channel r recipientId => insertDm r.auth r.channelId r.now [recipientId]
  | .self r recipientId => do
    insertRecipients r.channelId [r.auth, recipientId]
    inserted r recipientId
  | .other r recipientId => do
    insertRecipients r.channelId [recipientId]
    inserted r recipientId
  | .profiles r recipientId => inserted r recipientId
  | .ok response => pure response
  | .failed e => fail e

def send : DmSql → DmStage → DmDb → DmStage × DmDb := Pool.send dmStatement .failed

def next : DmStage → DmDb → DmStage × DmDb
  | .blocked r recipientId, s =>
    (if s.relationships.any fun row => row.userId = recipientId && row.targetId = r.auth && row.type = 2 then
      .failed (.forbidden "Cannot send DM to this user")
    else .existing r recipientId, s)
  | .existing r recipientId, s =>
    (match existingDm r.auth recipientId s with
    | none => .channel r recipientId
    | some channelId => .profile r recipientId channelId, s)
  | .profile _ recipientId channelId, s =>
    (match s.users.find? fun u => u.id = recipientId && u.deletedAt.isNone with
    | none => .failed (.notFound "Recipient not found")
    | some recipient => .ok (.found ⟨channelId, 1, [publicUser recipient], none, none, none⟩), s)
  | .channel r recipientId, s => send (.insertChannel r.channelId (dmType [recipientId]) r.now) (.self r recipientId) s
  | .self r recipientId, s => send (.insertRecipient r.channelId r.auth) (.other r recipientId) s
  | .other r recipientId, s => send (.insertRecipient r.channelId recipientId) (.profiles r recipientId) s
  | .profiles r recipientId, s =>
    (.ok (.created ⟨r.channelId, dmType [recipientId], dmProfiles r.auth [recipientId] s, none, none, none⟩), s)
  | .ok response, s => (.ok response, s)
  | .failed e, s => (.failed e, s)

/-- the pending command fails -/
def stop (e : AppError) : DmStage → DmStage
  | .ok response => .ok response
  | .failed e' => .failed e'
  | _ => .failed e

/-- the request is inserting its channel -/
def creates : DmStage → Bool
  | .channel .. | .self .. | .other .. => true
  | _ => false

end DmStage

/-- **A stage and its program take the same steps.** -/
theorem dmStage_advance (t : DmStage) (s : DmDb) :
    t.prog.advance dmStatement s = ((t.next s).1.prog, (t.next s).2) := by
  cases t with
  | blocked r recipientId =>
    rw [DmStage.next]
    show ((failIf _ (.forbidden "Cannot send DM to this user") >>= fun _ => do
      let existing ← select (existingDm r.auth recipientId)
      foundDm recipientId existing) >>= answerDm r.auth r.channelId r.now [recipientId], s) = _
    dsimp only
    rw [failIf]
    split_ifs <;> rfl
  | existing r recipientId =>
    rw [DmStage.next]
    show (foundDm recipientId (existingDm r.auth recipientId s) >>=
      answerDm r.auth r.channelId r.now [recipientId], s) = _
    rcases existingDm r.auth recipientId s with _ | channelId <;> rfl
  | profile r recipientId channelId =>
    rw [DmStage.next]
    show ((orFail (.notFound "Recipient not found") (s.users.find? _) >>= fun recipient =>
      pure (some (.found ⟨channelId, 1, [publicUser recipient], none, none, none⟩))) >>=
        answerDm r.auth r.channelId r.now [recipientId], s) = _
    rcases s.users.find? _ with _ | u <;> rfl
  | channel r recipientId => exact Pool.advance_exec DmStage.prog (fun _ => rfl) _ (.self r recipientId) (fun _ => rfl) s
  | self r recipientId => exact Pool.advance_exec DmStage.prog (fun _ => rfl) _ (.other r recipientId) (fun _ => rfl) s
  | other r recipientId => exact Pool.advance_exec DmStage.prog (fun _ => rfl) _ (.profiles r recipientId) (fun _ => rfl) s
  | profiles r recipientId => rfl
  | ok response => rfl
  | failed e => rfl

theorem dmStage_interrupt (e : AppError) (t : DmStage) : t.prog.interrupt e = (t.stop e).prog := by
  cases t <;> rfl

theorem eq_ok_of_prog {t : DmStage} {response : DmResponse} (h : t.prog = pure response) : t = .ok response := by
  cases t with
  | ok response' => cases h; rfl
  | _ => exact nomatch congrArg Prog.succeeded h

/-! ## Side by side -/

/-- what other requests do to users and relationships -/
structure DmOutside where
  users : Table User.id
  relationships : Table Relationship.key

def DmDb.outside (s : DmDb) (o : DmOutside) : DmDb := { s with users := o.users, relationships := o.relationships }

section Pools

variable {ι : Type} [DecidableEq ι] (e : AppError)

/-- one turn of the requests; `e` is what a failed command reports -/
def dmStageStep : Pool ι DmStage DmDb → Turn ι DmOutside → Pool ι DmStage DmDb :=
  Pool.step DmStage.next (DmStage.stop e) DmDb.outside

def dmProgStep : Pool ι (DmHandler DmResponse) DmDb → Turn ι DmOutside → Pool ι (DmHandler DmResponse) DmDb :=
  Pool.stepProg dmStatement e DmDb.outside

/-- **A pool of stages runs as the pool of their programs.** -/
theorem dmStage_programs (s : Pool ι DmStage DmDb) (ts : List (Turn ι DmOutside)) :
    run (dmProgStep e) (s.map DmStage.prog) ts = (run (dmStageStep e) s ts).map DmStage.prog :=
  Pool.run_map DmStage.prog dmStage_advance (dmStage_interrupt e) s ts

end Pools

/-! ## Channels of the two -/

/-- a channel for two -/
def IsDm (s : DmDb) (c : ℤ) : Prop := ∃ row ∈ s.channels, row.id = c ∧ row.type = 1

/-- a channel for two in which both are -/
def IsPair (a b : ℤ) (s : DmDb) (c : ℤ) : Prop := IsDm s c ∧ a ∈ s.recipients c ∧ b ∈ s.recipients c

section Pairs

variable {a b x y c c' : ℤ} {s s' : DmDb}

theorem both_mem_iff {l : List ℤ} (h : Between a b x y) : x ∈ l ∧ y ∈ l ↔ a ∈ l ∧ b ∈ l := by
  rcases h with ⟨rfl, rfl⟩ | ⟨rfl, rfl⟩
  · exact Iff.rfl
  · exact and_comm

theorem not_isPair_of_existingDm (h : existingDm x y s = none) (hbetween : Between a b x y) (c : ℤ) :
    ¬ IsPair a b s c := by
  rintro ⟨⟨row, hrow, rfl, htype⟩, hboth⟩
  exact not_both_of_existingDm h hrow htype ((both_mem_iff hbetween).2 hboth)

theorem isPair_of_existingDm (h : existingDm x y s = some c) (hbetween : Between a b x y) : IsPair a b s c := by
  rw [existingDm, Option.map_eq_some_iff] at h
  obtain ⟨row, hfind, rfl⟩ := h
  obtain ⟨hrow, hall⟩ := Table.mem_of_find? hfind
  simp only [Bool.and_eq_true, decide_eq_true_eq, isRecipient_iff] at hall
  exact ⟨⟨row, hrow, rfl, hall.1.1⟩, (both_mem_iff hbetween).1 ⟨hall.1.2, hall.2⟩⟩

theorem OnlyRecipients.isDm (h : OnlyRecipients c s s') : IsDm s' c' ↔ IsDm s c' := by
  rw [IsDm, h.channels, IsDm]

theorem OnlyRecipients.isPair (h : OnlyRecipients c s s') (hc : c' ≠ c) : IsPair a b s' c' ↔ IsPair a b s c' := by
  rw [IsPair, h.isDm, h.recipients c' hc, IsPair]

theorem OnlyRecipients.referenced (h : OnlyRecipients c s s') (hc : s.hasChannel c = true) (href : Referenced s) :
    Referenced s' := by
  intro c' hc'
  rw [hasChannel_congr h.channels] at hc'
  rw [h.recipients c' (by rintro rfl; rw [hc] at hc'; cases hc')]
  exact href c' hc'

theorem OnlyChannel.isDm {row : Channel} (h : OnlyChannel s s' row) (hc : IsDm s c) : IsDm s' c := by
  obtain ⟨row', hrow, hid⟩ := hc
  exact ⟨row', (h.channels row').2 (.inl hrow), hid⟩

theorem OnlyChannel.isPair {row : Channel} (h : OnlyChannel s s' row) (hnone : s.recipients row.id = []) :
    IsPair a b s' c ↔ IsPair a b s c := by
  rw [IsPair, h.recipients, IsPair]
  refine ⟨fun ⟨⟨row', hrow, hid⟩, ha, hb⟩ => ⟨?_, ha, hb⟩, fun ⟨hdm, hboth⟩ => ⟨h.isDm hdm, hboth⟩⟩
  rcases (h.channels row').1 hrow with hold | rfl
  · exact ⟨row', hold, hid⟩
  · rw [← hid.1, hnone] at ha
    cases ha

theorem OnlyChannel.referenced {row : Channel} (h : OnlyChannel s s' row) (href : Referenced s) : Referenced s' := by
  intro c hc
  rw [h.recipients]
  exact href c (Table.any_eq_false.2 fun row' hrow => Table.any_eq_false.1 hc row' ((h.channels row').2 (.inl hrow)))

theorem IsDm.hasChannel (h : IsDm s c) : s.hasChannel c = true := by
  obtain ⟨row, hrow, hid, -⟩ := h
  exact Table.any_eq_true.2 ⟨row, hrow, decide_eq_true hid⟩

end Pairs

/-! ## One command -/

/-- what a request has found or inserted so far -/
def DmStage.Ready (a b : ℤ) (s : DmDb) : DmStage → Prop
  | .blocked r recipientId | .existing r recipientId | .channel r recipientId => Between a b r.auth recipientId
  | .profile _ _ channelId => IsPair a b s channelId
  | .self r recipientId => Between a b r.auth recipientId ∧ IsDm s r.channelId ∧ s.recipients r.channelId = []
  | .other r recipientId =>
    Between a b r.auth recipientId ∧ IsDm s r.channelId ∧ s.recipients r.channelId = [r.auth]
  | .profiles r _ => IsPair a b s r.channelId
  | .ok response => IsPair a b s response.channel.id
  | .failed _ => True

/-- what one command of a request does to the channels of the two -/
structure DmMoves (a b : ℤ) (t : DmStage) (s : DmDb) (t' : DmStage) (s' : DmDb) : Prop where
  referenced : Referenced s'
  ready : t'.Ready a b s'
  keeps : ∀ c, IsPair a b s c → IsPair a b s' c
  /-- the last insert completes a channel -/
  adds : (∀ c, IsPair a b s' c → IsPair a b s c) ∨
    t'.creates = false ∧ ∃ c, ∀ c', IsPair a b s' c' → IsPair a b s c' ∨ c' = c
  same : t.creates = false → s' = s
  starts : t'.creates = true → t.creates = true ∨
    ∃ r recipientId, t = .existing r recipientId ∧ existingDm r.auth recipientId s = none ∧ ∀ c, ¬ IsPair a b s c

section Moves

variable {a b : ℤ} {s : DmDb} {t t' : DmStage}

theorem DmMoves.of_same (href : Referenced s) (hready : t'.Ready a b s) (hcreates : t'.creates = false) :
    DmMoves a b t s t' s :=
  ⟨href, hready, fun _ hc => hc, .inl fun _ hc => hc, fun _ => rfl, fun h => absurd (hcreates.symm.trans h) nofun⟩

theorem DmStage.Ready.mono {s' : DmDb} (h : t.Ready a b s) (hcreates : t.creates = false)
    (hkeeps : ∀ c, IsPair a b s c → IsPair a b s' c) : t.Ready a b s' := by
  cases t with
  | blocked r recipientId => exact h
  | existing r recipientId => exact h
  | failed e => trivial
  | channel r recipientId => cases hcreates
  | self r recipientId => cases hcreates
  | other r recipientId => cases hcreates
  | profile r recipientId channelId => exact hkeeps channelId h
  | profiles r recipientId => exact hkeeps r.channelId h
  | ok response => exact hkeeps response.channel.id h

theorem moves_existing {r : DmRequest} {recipientId : ℤ} (href : Referenced s)
    (h : (DmStage.existing r recipientId).Ready a b s) :
    DmMoves a b (.existing r recipientId) s ((DmStage.existing r recipientId).next s).1 s := by
  rw [DmStage.next]
  rcases hexisting : existingDm r.auth recipientId s with _ | channelId
  · refine ⟨href, h, fun _ hc => hc, .inl fun _ hc => hc, fun _ => rfl, fun _ => .inr ?_⟩
    exact ⟨r, recipientId, rfl, hexisting, not_isPair_of_existingDm hexisting h⟩
  · exact .of_same href (isPair_of_existingDm hexisting h) rfl

theorem moves_channel {r : DmRequest} {recipientId : ℤ} (href : Referenced s)
    (h : (DmStage.channel r recipientId).Ready a b s) :
    DmMoves a b (.channel r recipientId) s ((DmStage.channel r recipientId).next s).1
      ((DmStage.channel r recipientId).next s).2 := by
  rw [DmStage.next, DmStage.send, Pool.send]
  rcases insertChannel_cases s r.channelId (dmType [recipientId]) r.now with
    ⟨-, e, hexec⟩ | ⟨hchannel, s', hexec, hrow⟩
  · rw [hexec]
    exact .of_same href trivial rfl
  · rw [hexec]
    have hnone : s.recipients r.channelId = [] := href r.channelId hchannel
    refine ⟨hrow.referenced href, ⟨h, ?_, (hrow.recipients r.channelId).trans hnone⟩, fun c hc => (hrow.isPair hnone).2 hc,
      .inl fun c hc => (hrow.isPair hnone).1 hc, by rintro ⟨⟩, fun _ => .inl rfl⟩
    exact ⟨_, (hrow.channels _).2 (.inr rfl), rfl, rfl⟩

theorem moves_self {r : DmRequest} {recipientId : ℤ} (hab : a ≠ b) (href : Referenced s)
    (h : (DmStage.self r recipientId).Ready a b s) :
    DmMoves a b (.self r recipientId) s ((DmStage.self r recipientId).next s).1
      ((DmStage.self r recipientId).next s).2 := by
  rw [DmStage.next, DmStage.send, Pool.send]
  obtain ⟨hbetween, hdm, hnone⟩ := h
  rcases insertRecipient_cases (u := r.auth) hdm.hasChannel with ⟨-, -, s', hexec, honly, hrecipients⟩ | ⟨-, e, hexec⟩
  · rw [hexec]
    rw [hnone] at hrecipients
    -- one recipient is not two
    have hpair : ∀ c, IsPair a b s' c ↔ IsPair a b s c := by
      intro c
      by_cases hc : c = r.channelId
      · subst hc
        refine iff_of_false (fun hpair => ?_) fun hpair => ?_
        · have ha := hpair.2.1
          have hb := hpair.2.2
          rw [hrecipients, List.nil_append, List.mem_singleton] at ha hb
          exact hab (ha.trans hb.symm)
        · have ha := hpair.2.1
          rw [hnone] at ha
          cases ha
      · exact honly.isPair hc
    exact ⟨honly.referenced hdm.hasChannel href, ⟨hbetween, honly.isDm.2 hdm, hrecipients⟩, fun c => (hpair c).2,
      .inl fun c => (hpair c).1, by rintro ⟨⟩, fun _ => .inl rfl⟩
  · rw [hexec]
    exact .of_same href trivial rfl

theorem moves_other {r : DmRequest} {recipientId : ℤ} (href : Referenced s)
    (h : (DmStage.other r recipientId).Ready a b s) :
    DmMoves a b (.other r recipientId) s ((DmStage.other r recipientId).next s).1
      ((DmStage.other r recipientId).next s).2 := by
  rw [DmStage.next, DmStage.send, Pool.send]
  obtain ⟨hbetween, hdm, hself⟩ := h
  rcases insertRecipient_cases (u := recipientId) hdm.hasChannel with
    ⟨-, -, s', hexec, honly, hrecipients⟩ | ⟨-, e, hexec⟩
  · rw [hexec]
    rw [hself] at hrecipients
    have hnew : IsPair a b s' r.channelId := by
      refine ⟨honly.isDm.2 hdm, (both_mem_iff hbetween).1 ?_⟩
      rw [hrecipients]
      simp
    refine ⟨honly.referenced hdm.hasChannel href, hnew, fun c hc => ?_, .inr ⟨rfl, r.channelId, fun c hc => ?_⟩, by rintro ⟨⟩,
      by rintro ⟨⟩⟩
    · by_cases heq : c = r.channelId
      · rw [heq]
        exact hnew
      · exact (honly.isPair heq).2 hc
    · by_cases heq : c = r.channelId
      · exact .inr heq
      · exact .inl ((honly.isPair heq).1 hc)
  · rw [hexec]
    exact .of_same href trivial rfl

theorem dm_moves (hab : a ≠ b) (href : Referenced s) (h : t.Ready a b s) :
    DmMoves a b t s (t.next s).1 (t.next s).2 := by
  cases t with
  | blocked r recipientId =>
    rw [DmStage.next]
    split_ifs
    · exact .of_same href trivial rfl
    · exact .of_same href h rfl
  | existing r recipientId => exact moves_existing href h
  | profile r recipientId channelId =>
    rw [DmStage.next]
    rcases s.users.find? _ with _ | u
    · exact .of_same href trivial rfl
    · exact .of_same href h rfl
  | channel r recipientId => exact moves_channel href h
  | self r recipientId => exact moves_self hab href h
  | other r recipientId => exact moves_other href h
  | profiles r recipientId => exact .of_same href h rfl
  | ok response => exact .of_same href h rfl
  | failed e => exact .of_same href trivial rfl

end Moves

/-! ## One channel -/

/-- no request looks for the channel in vain while another one is inserting it -/
def DmAlone {ι : Type} (s : Pool ι DmStage DmDb) : Turn ι DmOutside → Prop
  | .advance i =>
    match s.task i with
    | .existing r recipientId =>
      existingDm r.auth recipientId s.shared = none → ∀ j, (s.task j).creates = false
    | _ => True
  | _ => True

instance {ι : Type} [Fintype ι] (s : Pool ι DmStage DmDb) : (t : Turn ι DmOutside) → Decidable (DmAlone s t)
  | .advance i => by
    rw [DmAlone]
    cases s.task i <;> dsimp only <;> infer_instance
  | .interrupt _ => isTrue trivial
  | .outside _ => isTrue trivial

structure DmInv {ι : Type} (a b : ℤ) (s : Pool ι DmStage DmDb) : Prop where
  referenced : Referenced s.shared
  ready : ∀ i, (s.task i).Ready a b s.shared
  one : ∀ c c', IsPair a b s.shared c → IsPair a b s.shared c' → c = c'
  creates : ∀ i j, (s.task i).creates = true → (s.task j).creates = true → i = j
  none : ∀ i, (s.task i).creates = true → ∀ c, ¬ IsPair a b s.shared c

section Runs

variable {ι : Type} [DecidableEq ι] {e : AppError} {a b : ℤ}

theorem dmAdvance_inv (hab : a ≠ b) (s : Pool ι DmStage DmDb) (i : ι) (hok : DmAlone s (.advance i)) (h : DmInv a b s) :
    DmInv a b (dmStageStep e s (.advance i)) := by
  rcases hnext : (s.task i).next s.shared with ⟨t', s'⟩
  have hmoves : DmMoves a b (s.task i) s.shared t' s' := by
    have := dm_moves hab h.referenced (h.ready i)
    rwa [hnext] at this
  have htask : ∀ j, (dmStageStep e s (.advance i)).task j = if j = i then t' else s.task j := Pool.advance_task hnext
  have hshared : (dmStageStep e s (.advance i)).shared = s' := Pool.advance_shared hnext
  -- a request that starts to insert is the only one
  have hothers : t'.creates = true → ∀ j, j ≠ i → (s.task j).creates = false := by
    intro hcreates j hj
    rcases hmoves.starts hcreates with hbefore | ⟨r, recipientId, hexisting, hnone, -⟩
    · rcases hother : (s.task j).creates with _ | _
      · rfl
      · exact absurd (h.creates j i hother hbefore) hj
    · rw [DmAlone, hexisting] at hok
      exact hok hnone j
  have hcreates : ∀ j k, ((dmStageStep e s (.advance i)).task j).creates = true →
      ((dmStageStep e s (.advance i)).task k).creates = true → j = k := by
    refine Pool.sole_step (P := fun t : DmStage => t.creates = true) (fun _ => Pool.advance_other) h.creates
      fun hmine j hj => ?_
    rw [htask, if_pos rfl] at hmine
    exact Bool.eq_false_iff.1 (hothers hmine j hj)
  refine ⟨by rw [hshared]; exact hmoves.referenced, fun j => ?_, fun c c' => ?_, hcreates, fun j => ?_⟩
  · rw [htask, hshared]
    split_ifs with hj
    · exact hmoves.ready
    · rcases hcreates : (s.task i).creates with _ | _
      · rw [hmoves.same hcreates]
        exact h.ready j
      · rcases hother : (s.task j).creates with _ | _
        · exact (h.ready j).mono hother hmoves.keeps
        · exact absurd (h.creates j i hother hcreates) hj
  · rw [hshared]
    intro hc hc'
    rcases hmoves.adds with hold | ⟨-, new, hnew⟩
    · exact h.one c c' (hold c hc) (hold c' hc')
    · rcases hcreates : (s.task i).creates with _ | _
      · rw [hmoves.same hcreates] at hc hc'
        exact h.one c c' hc hc'
      · have hnone := h.none i hcreates
        exact ((hnew c hc).resolve_left (hnone c)).trans ((hnew c' hc').resolve_left (hnone c')).symm
  · rw [htask, hshared]
    split_ifs with hj
    · intro hcreates c hc
      rcases hmoves.adds with hold | ⟨hdone, -⟩
      · rcases hmoves.starts hcreates with hbefore | ⟨-, -, -, -, hnone⟩
        · exact h.none i hbefore c (hold c hc)
        · exact hnone c (hold c hc)
      · exact absurd (hdone.symm.trans hcreates) nofun
    · intro hcreates
      rcases hmine : (s.task i).creates with _ | _
      · rw [hmoves.same hmine]
        exact h.none j hcreates
      · exact absurd (h.creates j i hcreates hmine) hj

theorem dmStop_cases (e : AppError) (t : DmStage) : t.stop e = t ∨ ∃ e', t.stop e = .failed e' := by
  cases t with
  | ok response => exact .inl rfl
  | failed e' => exact .inl rfl
  | _ => exact .inr ⟨e, rfl⟩

theorem dmStageStep_inv (hab : a ≠ b) (s : Pool ι DmStage DmDb) (t : Turn ι DmOutside) (hok : DmAlone s t)
    (h : DmInv a b s) : DmInv a b (dmStageStep e s t) := by
  cases t with
  | advance i => exact dmAdvance_inv hab s i hok h
  | interrupt i =>
    have hstop : ∀ j, (dmStageStep e s (.interrupt i)).task j = s.task j ∨
        ∃ e', (dmStageStep e s (.interrupt i)).task j = .failed e' := by
      intro j
      have htask : (dmStageStep e s (.interrupt i)).task j = if j = i then (s.task i).stop e else s.task j :=
        Pool.interrupt_task j
      rw [htask]
      split_ifs with hj
      · rw [hj]
        exact dmStop_cases e (s.task i)
      · exact .inl rfl
    have hcreates : ∀ j, ((dmStageStep e s (.interrupt i)).task j).creates = true → (s.task j).creates = true := by
      intro j hj
      rcases hstop j with hsame | ⟨e', hfailed⟩
      · rwa [hsame] at hj
      · rw [hfailed] at hj
        cases hj
    refine ⟨h.referenced, fun j => ?_, h.one, fun j k hj hk => h.creates j k (hcreates j hj) (hcreates k hk),
      fun j hj => h.none j (hcreates j hj)⟩
    rcases hstop j with hsame | ⟨e', hfailed⟩
    · rw [hsame]
      exact h.ready j
    · rw [hfailed]
      trivial
  | outside o =>
    refine ⟨h.referenced, fun j => ?_, h.one, h.creates, h.none⟩
    have hready := h.ready j
    show (s.task j).Ready a b (s.shared.outside o)
    cases hstage : s.task j <;> rw [hstage] at hready <;> exact hready

/-- requests that have passed the checks on their lists -/
def dmRequests (s : DmDb) (rs : ι → DmRequest) (recipientId : ι → ℤ) : Pool ι DmStage DmDb :=
  ⟨fun i => .blocked (rs i) (recipientId i), s⟩

omit [DecidableEq ι] in
theorem dmRequests_inv {s : DmDb} {rs : ι → DmRequest} {recipientId : ι → ℤ}
    (hbetween : ∀ i, Between a b (rs i).auth (recipientId i)) (href : Referenced s)
    (hone : ∀ c c', IsPair a b s c → IsPair a b s c' → c = c') : DmInv a b (dmRequests s rs recipientId) :=
  ⟨href, hbetween, hone, nofun, nofun⟩

theorem createDmChannel_eq_prog {r : DmRequest} {recipientId : ℤ} (hids : r.body.ids = .ok [recipientId])
    (hne : recipientId ≠ r.auth) :
    createDmChannel r.auth r.channelId r.now r.body = (DmStage.blocked r recipientId).prog := by
  have hchecked : dmRecipientIds r.auth r.body = .ok [recipientId] := by
    rw [dmRecipientIds, hids, bind_eq_ok]
    exact ⟨[recipientId], rfl, by simp [hne]⟩
  rw [createDmChannel, hchecked]
  rfl

/-- **One channel for two.** Of two users who open direct messages with each other, in a run of turns that are alone, there
is at most one channel, and every request that succeeds returns it. -/
theorem one_dm (e : AppError) (hab : a ≠ b) (s : DmDb) (rs : ι → DmRequest) (recipientId : ι → ℤ)
    (hids : ∀ i, (rs i).body.ids = .ok [recipientId i]) (hbetween : ∀ i, Between a b (rs i).auth (recipientId i))
    (href : Referenced s) (hone : ∀ c c', IsPair a b s c → IsPair a b s c' → c = c') (ts : List (Turn ι DmOutside))
    (h : Every (dmStageStep e) DmAlone (dmRequests s rs recipientId) ts) :
    let calls := run (dmProgStep e) ⟨fun i => createDmChannel (rs i).auth (rs i).channelId (rs i).now (rs i).body, s⟩ ts
    (∀ c c', IsPair a b calls.shared c → IsPair a b calls.shared c' → c = c') ∧
      ∀ i response, calls.task i = pure response → IsPair a b calls.shared response.channel.id := by
  intro calls
  have hne : ∀ i, recipientId i ≠ (rs i).auth := by
    intro i heq
    rcases hbetween i with ⟨ha, hb⟩ | ⟨hb, ha⟩
    · exact hab (ha.symm.trans (heq.symm.trans hb))
    · exact hab (ha.symm.trans (heq.trans hb))
  have hstart : (⟨fun i => createDmChannel (rs i).auth (rs i).channelId (rs i).now (rs i).body, s⟩ :
      Pool ι (DmHandler DmResponse) DmDb) = (dmRequests s rs recipientId).map DmStage.prog :=
    congrArg (Pool.mk · s) (funext fun i => createDmChannel_eq_prog (hids i) (hne i))
  have hcalls : calls = (run (dmStageStep e) (dmRequests s rs recipientId) ts).map DmStage.prog :=
    (congrArg (run (dmProgStep e) · ts) hstart).trans (dmStage_programs e _ ts)
  have hinv : DmInv a b (run (dmStageStep e) (dmRequests s rs recipientId) ts) :=
    run_inv_of_every (dmStageStep_inv hab) (dmRequests_inv hbetween href hone) h
  rw [hcalls]
  refine ⟨hinv.one, fun i response hi => ?_⟩
  have hready := hinv.ready i
  rwa [eq_ok_of_prog hi] at hready

end Runs

/-! ## Two requests -/

/-- users 7 and 8 name each other -/
def eachOther : Fin 2 → DmRequest := ![⟨7, 100, ⟨0⟩, ⟨some 8, none⟩⟩, ⟨8, 101, ⟨0⟩, ⟨none, some [7]⟩⟩]

/-- the connection to the database is gone -/
def lost : AppError := .internal "lost"

def eachOtherIds : Fin 2 → ℤ := ![8, 7]

/-- the second request looks once the first has inserted both recipients -/
def lookAfter : List (Turn (Fin 2) DmOutside) :=
  List.replicate 5 (.advance 0) ++ List.replicate 3 (.advance 1) ++ [.advance 0]

theorem one_dm_lookAfter :
    let calls := run (dmProgStep lost) ⟨fun i => createDmChannel (eachOther i).auth (eachOther i).channelId
      (eachOther i).now (eachOther i).body, dmUsers⟩ lookAfter
    (∀ c c', IsPair 7 8 calls.shared c → IsPair 7 8 calls.shared c' → c = c') ∧
      ∀ i response, calls.task i = pure response → IsPair 7 8 calls.shared response.channel.id :=
  one_dm lost (by decide) dmUsers eachOther eachOtherIds (by decide) (by decide) dmUsers_referenced
    (fun c c' h => absurd h.2.1 List.not_mem_nil) lookAfter (by decide)

/-- both requests look before either has inserted its channel -/
def lookBefore : List (Turn (Fin 2) DmOutside) := (List.replicate 6 [.advance 0, .advance 1]).flatten

/-- **Two channels for two.** Both requests succeed, each with a channel of its own. -/
theorem two_dms :
    let calls := run (dmProgStep lost) ⟨fun i => createDmChannel (eachOther i).auth (eachOther i).channelId
      (eachOther i).now (eachOther i).body, dmUsers⟩ lookBefore
    (∃ response, calls.task 0 = pure response ∧ response.channel.id = 100) ∧
      (∃ response, calls.task 1 = pure response ∧ response.channel.id = 101) ∧
      IsPair 7 8 calls.shared 100 ∧ IsPair 7 8 calls.shared 101 := by
  have hcalls : run (dmProgStep lost) ⟨fun i => createDmChannel (eachOther i).auth (eachOther i).channelId
      (eachOther i).now (eachOther i).body, dmUsers⟩ lookBefore =
      (run (dmStageStep lost) (dmRequests dmUsers eachOther eachOtherIds) lookBefore).map DmStage.prog := by
    rw [← dmStage_programs]
    refine congrArg (run (dmProgStep lost) · lookBefore) (congrArg (Pool.mk · dmUsers) (funext fun i => ?_))
    exact createDmChannel_eq_prog (by revert i; decide) (by revert i; decide)
  set stages := run (dmStageStep lost) (dmRequests dmUsers eachOther eachOtherIds) lookBefore with hstages
  have hfirst : stages.task 0 = .ok (.created ⟨100, 1, [publicUser (dmUser 8)], none, none, none⟩) := by decide
  have hsecond : stages.task 1 = .ok (.created ⟨101, 1, [publicUser (dmUser 7)], none, none, none⟩) := by decide
  have hpairs : ∀ c ∈ [(100 : ℤ), 101], dmChannelRow c 1 ⟨0⟩ ∈ stages.shared.channels ∧
      7 ∈ stages.shared.recipients c ∧ 8 ∈ stages.shared.recipients c := by decide
  rw [hcalls]
  refine ⟨⟨_, congrArg DmStage.prog hfirst, rfl⟩, ⟨_, congrArg DmStage.prog hsecond, rfl⟩, ?_, ?_⟩
  · obtain ⟨hrow, hboth⟩ := hpairs 100 (by decide)
    exact ⟨⟨_, hrow, rfl, rfl⟩, hboth⟩
  · obtain ⟨hrow, hboth⟩ := hpairs 101 (by decide)
    exact ⟨⟨_, hrow, rfl, rfl⟩, hboth⟩

end Lumiere.Routes
