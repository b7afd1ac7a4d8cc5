/-
What a resume gives back. The events that the client has missed are replayed from the buffer, and only a listener puts
an event there; between the end of one connection and the subscriptions of the next a session has no listener.

- `no_event_lost`: nothing is lost in a run in which every event is heard by a listener that handles it before it ends,
  every resume finds in the buffer what the client has missed, and no channel to the client is full.
- `unheard_lost`: an event that no listener hears is never received.
- `published_while_away`: an event is published while the client is away, and the resume succeeds without it.
-/
import Lumiere.Gateway.Sequence

namespace Lumiere.Gateway

open Lumiere.Core Lumiere.Db Lumiere.Routes

namespace Resumption

/-! ## Where an event is -/

/-- the events that the client has received -/
def St.events (s : St) : List Event := s.received.filterMap Dispatch.event?

/-- what the client is still going to get over this connection, if the connection holds -/
def Conn.coming (x : Conn) : List Event := (x.pending ++ x.replaying).filterMap Dispatch.event?

/-- the connection leads to the client and goes on -/
def Conn.Alive (x : Conn) : Prop := x.link = .up ∧ x.stage ≠ .closing

/-- a listener has the event, or it is numbered and, over a connection that goes on, on its way -/
def Conn.Keeps (x : Conn) (numbered : List Event) (e : Event) : Prop :=
  e ∈ x.listeners.held ∨ e ∈ numbered ∧ (x.Alive → e ∈ x.coming)

def St.Safe (s : St) (e : Event) : Prop :=
  e ∈ s.events ∨
    match s.conn with
    | some x => x.Keeps s.numbered e
    | none => e ∈ s.numbered

/-- the message that the aborted listener was handling -/
def Conn.cutEvent (x : Conn) (cut : Option (ℕ × Bool)) : Option Event :=
  cut.bind fun c => (x.listeners.take c.1).map Prod.fst

/-- the step loses no event whose index is `n` or more -/
def Keeping (n : ℕ) (s : St) : Op → Prop
  | .publish p => s.watches p.subject = true → ∃ x ∈ s.conn, x.listeners.hears p.subject = true
  | .dispatch j _ => ∀ x ∈ s.conn, (x.link = .up → x.room = true) ∧
      (x.room = false → ∀ e ∈ (x.listeners.inbox j).tail, e.index < n)
  | .stop j => ∀ x ∈ s.conn, ∀ e ∈ x.listeners.inbox j, e.index < n
  | .hangUp cut => ∀ x ∈ s.conn, ∀ e ∈ x.listeners.held, n ≤ e.index → x.cutEvent cut = some e
  | .resume _ read => ∀ e ∈ s.numbered, n ≤ e.index → e ∈ s.events ∨ e ∈ (s.replays read).filterMap Dispatch.event?
  | .replay => ∀ x ∈ s.conn, x.link = .up → x.room = true
  | _ => True

instance (n : ℕ) (s : St) : (o : Op) → Decidable (Keeping n s o)
  | .publish p => inferInstanceAs (Decidable (_ → ∃ x ∈ s.conn, x.listeners.hears p.subject = true))
  | .dispatch j _ => inferInstanceAs (Decidable (∀ x ∈ s.conn, (x.link = .up → x.room = true) ∧
      (x.room = false → ∀ e ∈ (x.listeners.inbox j).tail, e.index < n)))
  | .stop j => inferInstanceAs (Decidable (∀ x ∈ s.conn, ∀ e ∈ x.listeners.inbox j, e.index < n))
  | .hangUp cut =>
    inferInstanceAs (Decidable (∀ x ∈ s.conn, ∀ e ∈ x.listeners.held, n ≤ e.index → x.cutEvent cut = some e))
  | .resume _ read => inferInstanceAs (Decidable (∀ e ∈ s.numbered, n ≤ e.index →
      e ∈ s.events ∨ e ∈ (s.replays read).filterMap Dispatch.event?))
  | .replay => inferInstanceAs (Decidable (∀ x ∈ s.conn, x.link = .up → x.room = true))
  | .other | .resumed _ | .spawn _ | .fail | .subscribe _ | .deliver | .unlink | .endSender | .close _ | .expireBuffer
  | .expireRecord => isTrue trivial

/-- the session listens, and nothing is on its way any more -/
def Settled (s : St) : Prop :=
  ∃ x ∈ s.conn, x.link = .up ∧ x.listening = true ∧ x.queue = [] ∧ x.listeners.held = []

instance (s : St) : Decidable (Settled s) :=
  inferInstanceAs (Decidable (∃ x ∈ s.conn, x.link = .up ∧ x.listening = true ∧ x.queue = [] ∧ x.listeners.held = []))

variable {user : ℤ} {n : ℕ} {s : St} {x y : Conn} {e : Event} {numbered : List Event}

theorem Conn.listening_iff : x.listening = true ↔ ∃ ls, x.stage = .listening ls := by
  rw [Conn.listening]
  split <;> simp_all

theorem Conn.Keeps.mono (h : x.Keeps numbered e) (hheld : e ∈ x.listeners.held → e ∈ y.listeners.held)
    (hcoming : y.Alive → x.Alive ∧ (e ∈ x.coming → e ∈ y.coming)) : y.Keeps numbered e := by
  rcases h with h | ⟨hnumbered, h⟩
  · exact .inl (hheld h)
  · exact .inr ⟨hnumbered, fun hy => (hcoming hy).2 (h (hcoming hy).1)⟩

theorem Conn.Keeps.of_no_listeners (h : x.Keeps numbered e) (hlisteners : x.listeners = []) : e ∈ numbered := by
  rcases h with h | h
  · rw [hlisteners] at h
    cases h
  · exact h.1

theorem St.Safe.conn_eq (h : s.Safe e) (hx : s.conn = some x) {s' : St} (hevents : s'.received = s.received)
    (hconn : s'.conn = some y) (hy : x.Keeps s.numbered e → y.Keeps s'.numbered e) : s'.Safe e := by
  rw [St.Safe, hx] at h
  rw [St.Safe, hconn, St.events, hevents]
  exact h.imp_right hy

/-- a connection whose loop is over: its events are numbered -/
theorem St.Safe.of_closing (h : s.Safe e) (hx : s.conn = some x) {s' : St} (hevents : s'.received = s.received)
    (hconn : s'.conn = some y) (hstage : y.stage = .closing) (hnumbered : x.Keeps s.numbered e → e ∈ s'.numbered) :
    s'.Safe e :=
  h.conn_eq hx hevents hconn fun hk => .inr ⟨hnumbered hk, fun hy => absurd hstage hy.2⟩

theorem Conn.mem_coming_trySend {m : Option Dispatch} (hstage : y.replaying = x.replaying)
    (hpending : y.pending = (x.trySend m).pending) (h : e ∈ x.coming) : e ∈ y.coming := by
  rw [Conn.coming, hstage, hpending]
  rw [Conn.coming] at h
  rcases Conn.trySend_pending (x := x) (m := m) with hp | hp
  · rwa [hp]
  · rw [hp]
    simp only [List.filterMap_append, List.mem_append] at h ⊢
    exact h.imp_left .inl

theorem Conn.Keeps.dispatch {ls₀ ls : Listeners Event} {j n' : ℕ} {e₀ : Event} (h : x.Keeps numbered e)
    (hstage : x.stage = .listening ls₀) (htake : x.listeners.take j = some (e₀, ls)) (hn : n ≤ e.index)
    (ho : (x.link = .up → x.room = true) ∧
      (x.room = false → ∀ e ∈ (x.listeners.inbox j).tail, e.index < n)) :
    Conn.Keeps { x.trySend (some ⟨n', .event e₀⟩) with
      sequence := n', stage := if x.room then .listening ls else .listening (ls.stop j) } (numbered ++ [e₀]) e := by
  by_cases hroom : x.room = true
  · rw [if_pos hroom]
    have hcoming (hlink : x.link = .up) (he : e ∈ x.coming ∨ e = e₀) :
        e ∈ Conn.coming { x.trySend (some ⟨n', .event e₀⟩) with sequence := n', stage := .listening ls } := by
      have hpending : Conn.pending { x.trySend (some ⟨n', .event e₀⟩) with sequence := n', stage := .listening ls } =
          x.pending ++ [⟨n', .event e₀⟩] := by
        have hsent := Conn.trySend_pending_of_room (m := some ⟨n', .event e₀⟩) fun _ => hroom
        rw [if_pos hlink] at hsent
        exact hsent
      rw [Conn.coming, List.filterMap_append, List.mem_append, hpending]
      refine .inl ?_
      simpa [Conn.coming, Conn.replaying, hstage, Dispatch.event?] using he
    rcases h with hheld | ⟨hnumbered, h⟩
    · rcases Listeners.mem_held_take htake hheld with rfl | hheld
      · exact .inr ⟨by simp, fun hy => hcoming (by simpa using hy.1) (.inr rfl)⟩
      · exact .inl hheld
    · refine .inr ⟨List.mem_append_left _ hnumbered, fun hy => ?_⟩
      have hlink : x.link = .up := by simpa using hy.1
      exact hcoming hlink (.inl (h ⟨hlink, by simp [hstage]⟩))
  · rw [if_neg hroom]
    have hdown : x.link ≠ .up := fun hlink => hroom (ho.1 hlink)
    have hdead : e ∈ numbered ++ [e₀] → Conn.Keeps { x.trySend (some ⟨n', .event e₀⟩) with
        sequence := n', stage := .listening (ls.stop j) } (numbered ++ [e₀]) e :=
      fun hnumbered => .inr ⟨hnumbered, fun hy => absurd (by simpa using hy.1) hdown⟩
    rcases h with hheld | h
    · rcases Listeners.mem_held_take htake hheld with rfl | hheld
      · exact hdead (by simp)
      · rcases Listeners.mem_held_stop (j := j) hheld with hinbox | hheld
        · exact absurd (ho.2 (by simpa using hroom) e (Listeners.inbox_take htake ▸ hinbox)) (by omega)
        · exact .inl hheld
    · exact hdead (List.mem_append_left _ h.1)

theorem stepConn_safe (o : Op) (h : s.Safe e) (hx : s.conn = some x) (hn : n ≤ e.index) (ho : Keeping n s o) :
    (stepConn user s x o).Safe e := by
  cases o with
  | other =>
    refine h.conn_eq hx rfl rfl fun hk => hk.mono ?_ fun hy => ⟨?_, ?_⟩
    · simp [Conn.listeners]
    · simpa [Conn.Alive] using hy
    · exact Conn.mem_coming_trySend (by simp [Conn.replaying]) rfl
  | replay =>
    simp only [stepConn]
    split
    · next d rest hstage =>
      refine h.conn_eq hx rfl rfl fun hk => hk.mono ?_ fun hy => ⟨?_, fun hcoming => ?_⟩
      · simp [Conn.listeners, hstage, Listeners.held]
      · exact ⟨by simpa using hy.1, by simp [hstage]⟩
      · have hlink : x.link = .up := by simpa using hy.1
        have hpending : Conn.pending { x.trySend (some d) with stage := .replaying rest } = x.pending ++ [d] := by
          have hsent := Conn.trySend_pending_of_room (m := some d) (ho x hx)
          rw [if_pos hlink] at hsent
          exact hsent
        rw [Conn.coming, Conn.replaying, hpending]
        rw [Conn.coming, Conn.replaying, hstage] at hcoming
        simpa using hcoming
    · exact h
  | resumed deleted =>
    simp only [stepConn]
    split
    · next hstage =>
      refine h.conn_eq hx rfl rfl fun hk => hk.mono ?_ fun hy => ⟨?_, ?_⟩
      · simp [Conn.listeners, hstage, Listeners.held]
      · exact ⟨by simpa [Conn.answer] using hy.1, by simp [hstage]⟩
      · intro hcoming
        refine Conn.mem_coming_trySend (x := { x with sequence := nextSequence x.sequence, stage := .answered })
          (m := some ⟨nextSequence x.sequence, .resumed⟩) ?_ rfl ?_
        · simp [Conn.answer, Conn.replaying]
        · simpa [Conn.coming, Conn.replaying, hstage, Conn.pending] using hcoming
    · exact h
  | spawn pg =>
    simp only [stepConn]
    split
    · next hstage =>
      refine h.conn_eq hx rfl rfl fun hk => hk.mono ?_ fun hy => ⟨?_, ?_⟩
      · simp [Conn.listeners, hstage, Listeners.held]
      · exact ⟨hy.1, by simp [hstage]⟩
      · simp [Conn.coming, Conn.replaying, hstage, Conn.pending]
    · exact h
  | fail =>
    simp only [stepConn]
    split
    · next hstage =>
      rw [St.Safe, hx] at h
      exact h.imp_right fun hk => hk.of_no_listeners (by rw [Conn.listeners, hstage])
    · exact h
  | subscribe j =>
    simp only [stepConn]
    split
    · next ls hstage =>
      refine h.conn_eq hx rfl rfl fun hk => hk.mono ?_ fun hy => ⟨?_, ?_⟩
      · simp [Conn.listeners, hstage]
      · exact ⟨hy.1, by simp [hstage]⟩
      · simp [Conn.coming, Conn.replaying, hstage, Conn.pending]
    · exact h
  | stop j =>
    simp only [stepConn]
    split
    · next ls hstage =>
      have hlisteners : x.listeners = ls := by rw [Conn.listeners, hstage]
      refine h.conn_eq hx rfl rfl fun hk => hk.mono ?_ fun hy => ⟨?_, ?_⟩
      · rw [hlisteners]
        intro hheld
        rcases Listeners.mem_held_stop (j := j) hheld with hinbox | hheld
        · exact absurd (ho x hx e (hlisteners ▸ hinbox)) (by omega)
        · exact hheld
      · exact ⟨hy.1, by simp [hstage]⟩
      · simp [Conn.coming, Conn.replaying, hstage, Conn.pending]
    · exact h
  | dispatch j buffered =>
    simp only [stepConn]
    split
    · next ls₀ e₀ ls hstage htake =>
      refine h.conn_eq hx rfl rfl fun hk => ?_
      exact hk.dispatch hstage htake hn (ho x hx)
    · exact h
  | deliver =>
    simp only [stepConn]
    split
    · next m queue hlink hqueue =>
      have hpending : x.pending = m.toList ++ ({ x with queue } : Conn).pending := by
        rw [Conn.pending, if_pos hlink, hqueue, Conn.pending, if_pos hlink]
        cases m <;> rfl
      rw [St.Safe, hx] at h
      simp only [St.Safe, St.events, List.filterMap_append, List.mem_append]
      rcases h with h | h | ⟨hnumbered, h⟩
      · exact .inl (.inl h)
      · exact .inr (.inl h)
      · by_cases hm : e ∈ m.toList.filterMap Dispatch.event?
        · exact .inl (.inr hm)
        · refine .inr (.inr ⟨hnumbered, fun hy => ?_⟩)
          have hcoming := h hy
          rw [Conn.coming, hpending, List.append_assoc, List.filterMap_append, List.mem_append] at hcoming
          exact hcoming.resolve_left hm
    · next m queue hlink hqueue =>
      refine h.conn_eq hx rfl rfl fun hk => hk.mono id fun hy => ?_
      exact absurd (hlink.symm.trans hy.1) (by simp)
    · exact h
  | unlink =>
    refine h.conn_eq hx rfl rfl fun hk => hk.mono id fun hy => ?_
    have hlink := hy.1
    simp only at hlink
    split_ifs at hlink with hup
    exact absurd hlink hup
  | endSender =>
    simp only [stepConn]
    split
    · exact h.conn_eq hx rfl rfl fun hk => hk.mono id fun hy => absurd hy.1 (by simp)
    · exact h
  | hangUp cut =>
    simp only [stepConn]
    split
    · next ls hstage =>
      have hlisteners : x.listeners = ls := by rw [Conn.listeners, hstage]
      have hcut := ho x hx e
      rw [Conn.cutEvent, hlisteners] at hcut
      split
      · refine h.of_closing hx rfl rfl rfl fun hk => ?_
        rcases hk with hheld | hk
        · cases hcut (hlisteners ▸ hheld) hn
        · exact hk.1
      · next j buffered =>
        split
        · next e₀ ls' htake =>
          refine h.of_closing hx rfl rfl rfl fun hk => List.mem_append.2 ?_
          rcases hk with hheld | hk
          · have := hcut (hlisteners ▸ hheld) hn
            simp only [Option.bind_some, htake, Option.map_some, Option.some.injEq] at this
            exact .inr (by simp [this])
          · exact .inl hk.1
        · next htake =>
          refine h.of_closing hx rfl rfl rfl fun hk => ?_
          rcases hk with hheld | hk
          · have := hcut (hlisteners ▸ hheld) hn
            simp [htake] at this
          · exact hk.1
    · exact h
  | close stored =>
    simp only [stepConn]
    split
    · next hstage =>
      rw [St.Safe, hx] at h
      exact h.imp_right fun hk => hk.of_no_listeners (by rw [Conn.listeners, hstage])
    · exact h
  | _ => exact h

/-! ## Runs that lose nothing -/

/-- the events from index `n` on -/
def SafeFrom (n : ℕ) (s : St) : Prop := ∀ e ∈ s.owed, n ≤ e.index → s.Safe e

theorem Conn.Keeps.hear {e' : Event} (h : x.Keeps numbered e) : (x.hear e').Keeps numbered e := by
  rw [Conn.hear]
  split
  · next ls hstage =>
    refine h.mono ?_ fun hy => ⟨⟨hy.1, by simp [hstage]⟩, ?_⟩
    · intro hheld
      rw [Conn.listeners, hstage] at hheld
      exact Listeners.mem_held_hear.2 (.inl hheld)
    · simp [Conn.coming, Conn.replaying, hstage, Conn.pending]
  · exact h

theorem Conn.mem_held_hear (h : x.listeners.hears e.subject = true) : e ∈ (x.hear e).listeners.held := by
  rw [Conn.listeners] at h
  split at h
  · next ls hstage =>
    simp only [Conn.hear, hstage, Conn.listeners]
    exact Listeners.mem_held_hear.2 (.inr ⟨List.mem_singleton_self e, h⟩)
  · cases h

theorem St.Safe.publish {p : Publication} (h : s.Safe e) : (s.publish p).Safe e := by
  rw [St.Safe] at h ⊢
  refine h.imp_right fun hk => ?_
  rcases hx : s.conn with _ | x
  · rw [hx] at hk
    simp only [St.publish, hx, Option.map_none]
    exact hk
  · rw [hx] at hk
    simp only [St.publish, hx, Option.map_some]
    exact hk.hear

/-- a connection publishes nothing -/
theorem stepConn_published (user : ℤ) (s : St) (x : Conn) (o : Op) :
    (stepConn user s x o).published = s.published ∧ (stepConn user s x o).owed = s.owed := by
  constructor <;> cases o <;> simp only [stepConn] <;> repeat' split
  all_goals rfl

theorem step_safeFrom (s : St) (o : Op) (ho : Keeping n s o) (h : SafeFrom n s) : SafeFrom n (step user s o) := by
  intro e he hn
  cases o with
  | publish p =>
    have hpublish : e ∈ s.owed → (s.publish p).Safe e := fun he => (h e he hn).publish
    simp only [step, St.publish] at he
    split_ifs at he with hwatch
    · rcases List.mem_append.1 he with he | he
      · exact hpublish he
      · obtain rfl := List.mem_singleton.1 he
        obtain ⟨x, hx, hears⟩ := ho hwatch
        have hconn : s.conn = some x := hx
        refine .inr ?_
        simp only [step, St.publish, hconn, Option.map_some]
        exact .inl (Conn.mem_held_hear hears)
    · exact hpublish he
  | expireBuffer => exact h e he hn
  | expireRecord => exact h e he hn
  | resume waiting read =>
    simp only [step] at he ⊢
    split at he
    · next hconn hrecord =>
      have hsafe := h e he hn
      rw [St.Safe, hconn] at hsafe
      rcases hsafe with hsafe | hnumbered
      · exact .inl hsafe
      · rcases ho e hnumbered hn with hevents | hreplays
        · exact .inl hevents
        · refine .inr (.inr ⟨hnumbered, fun _ => ?_⟩)
          rw [Conn.coming, List.filterMap_append, List.mem_append]
          exact .inr hreplays
    · exact h e he hn
  | _ =>
    simp only [step] at he ⊢
    split at he
    · next x hx =>
      rw [(stepConn_published user s x _).2] at he
      exact stepConn_safe _ (h e he hn) hx hn ho
    · exact h e he hn

/-- what is owed has been published -/
def OwedPublished (s : St) : Prop := ∀ e ∈ s.owed, e.index < s.published

theorem step_owedPublished (s : St) (o : Op) (h : OwedPublished s) : OwedPublished (step user s o) := by
  cases o with
  | publish p =>
    intro e he
    simp only [step, St.publish] at he ⊢
    split_ifs at he
    · rcases List.mem_append.1 he with he | he
      · exact (h e he).trans (Nat.lt_succ_self _)
      · rw [List.mem_singleton.1 he]
        exact Nat.lt_succ_self _
    · exact (h e he).trans (Nat.lt_succ_self _)
  | expireBuffer => exact h
  | expireRecord => exact h
  | resume waiting read =>
    simp only [step]
    split <;> exact h
  | _ =>
    simp only [step]
    split
    · next x hx =>
      obtain ⟨hpublished, howed⟩ := stepConn_published user s x _
      rw [OwedPublished, hpublished, howed]
      exact h
    · exact h

/-- **A resume loses nothing that a listener has.** Take any run up to some publication, the last one that the client
receives before its connection ends, and go on: if every step keeps what is published from then on, then once the
session listens again and nothing is on its way, the client has received every event on the subjects of the session. -/
theorem no_event_lost (waiting : ℕ) (before after : List Op)
    (h : Every (step user) (Keeping (run (step user) (identify waiting) before).published)
      (run (step user) (identify waiting) before) after)
    (hsettled : Settled (run (step user) (identify waiting) (before ++ after))) :
    ∀ e ∈ (run (step user) (identify waiting) (before ++ after)).owed,
      (run (step user) (identify waiting) before).published ≤ e.index →
        e ∈ (run (step user) (identify waiting) (before ++ after)).events := by
  rw [run_append] at hsettled ⊢
  intro e he hn
  have hstart : SafeFrom (run (step user) (identify waiting) before).published
      (run (step user) (identify waiting) before) :=
    fun e he hn => absurd (run_inv step_owedPublished (by simp [OwedPublished, identify]) before e he) (by omega)
  have hsafe := run_inv_of_every step_safeFrom hstart h e he hn
  obtain ⟨x, hconn, hlink, hlistening, hqueue, hheld⟩ := hsettled
  obtain ⟨ls, hstage⟩ := Conn.listening_iff.1 hlistening
  rw [St.Safe, Option.mem_def.1 hconn] at hsafe
  rcases hsafe with hsafe | hsafe | ⟨-, hsafe⟩
  · exact hsafe
  · rw [hheld] at hsafe
    cases hsafe
  · have hcoming := hsafe ⟨hlink, by simp [hstage]⟩
    simp [Conn.coming, Conn.pending, hlink, hqueue, Conn.replaying, hstage] at hcoming

/-! ## Events that nobody hears -/

/-- the event is with a listener, in the channel or about to be replayed -/
def Conn.Has (x : Conn) (e : Event) : Prop :=
  e ∈ x.listeners.held ∨ ∃ d, d.event? = some e ∧ (some d ∈ x.queue ∨ d ∈ x.replaying)

def St.Has (s : St) (e : Event) : Prop :=
  (∃ d, d.event? = some e ∧ (d ∈ s.received ∨ d ∈ s.buffer)) ∨ ∃ x ∈ s.conn, x.Has e

theorem Conn.Has.of_subset (h : y.Has e) (hheld : e ∈ y.listeners.held → e ∈ x.listeners.held)
    (hqueue : y.queue ⊆ x.queue) (hreplaying : y.replaying ⊆ x.replaying) : x.Has e :=
  h.imp hheld fun ⟨d, he, hd⟩ => ⟨d, he, hd.imp (fun hd => hqueue hd) fun hd => hreplaying hd⟩

theorem Conn.mem_queue_trySend {m : Option Dispatch} {d : Dispatch} (h : some d ∈ (x.trySend m).queue) :
    some d ∈ x.queue ∨ m = some d := by
  rw [Conn.trySend] at h
  split_ifs at h
  · rcases List.mem_append.1 h with h | h
    · exact .inl h
    · exact .inr (List.mem_singleton.1 h).symm
  · exact .inl h

theorem Conn.Has.of_trySend {m : Option Dispatch} (h : (x.trySend m).Has e) :
    x.Has e ∨ ∃ d, m = some d ∧ d.event? = some e := by
  rcases h with h | ⟨d, he, hd | hd⟩
  · exact .inl (.inl (by simpa [Conn.listeners] using h))
  · rcases Conn.mem_queue_trySend hd with hd | hd
    · exact .inl (.inr ⟨d, he, .inl hd⟩)
    · exact .inr ⟨d, hd, he⟩
  · exact .inl (.inr ⟨d, he, .inr (by simpa [Conn.replaying] using hd)⟩)

theorem mem_bufferEvent {buffer : List Dispatch} {d d' : Dispatch} (h : d ∈ bufferEvent buffer d') :
    d ∈ buffer ∨ d = d' := by
  simpa using List.mem_of_mem_drop h

/-- nothing new for the client or in the buffer -/
theorem St.Has.of_conn {s' : St} (h : s'.Has e) (hx : s.conn = some x) (hreceived : s'.received = s.received)
    (hbuffer : s'.buffer ⊆ s.buffer) (hconn : ∀ y ∈ s'.conn, y.Has e → x.Has e) : s.Has e := by
  rcases h with ⟨d, he, hd⟩ | ⟨y, hy, h⟩
  · rw [hreceived] at hd
    exact .inl ⟨d, he, hd.imp_right fun hd => hbuffer hd⟩
  · exact .inr ⟨x, hx, hconn y hy h⟩

/-- nothing new but a message that a listener had -/
theorem St.Has.of_number {n : ℕ} {e₀ : Event} {buffered : Bool} {s' : St} (h : s'.Has e) (hx : s.conn = some x)
    (hreceived : s'.received = s.received) (hbuffer : s'.buffer = (s.number n e₀ buffered).buffer)
    (he₀ : e₀ ∈ x.listeners.held) (hconn : ∀ y ∈ s'.conn, y.Has e → x.Has e ∨ e = e₀) : s.Has e := by
  have hheld : s.Has e₀ := .inr ⟨x, hx, .inl he₀⟩
  rcases h with ⟨d, he, hd | hd⟩ | ⟨y, hy, h⟩
  · exact .inl ⟨d, he, .inl (hreceived ▸ hd)⟩
  · rw [hbuffer, St.number] at hd
    dsimp only at hd
    split_ifs at hd
    · rcases mem_bufferEvent hd with hd | rfl
      · exact .inl ⟨d, he, .inr hd⟩
      · obtain rfl : e₀ = e := Option.some.inj he
        exact hheld
    · exact .inl ⟨d, he, .inr hd⟩
  · rcases hconn y hy h with h | rfl
    · exact .inr ⟨x, hx, h⟩
    · exact hheld

theorem stepConn_has (o : Op) (hx : s.conn = some x) (h : (stepConn user s x o).Has e) : s.Has e := by
  have hsome {x' : Conn} {P : Prop} (hy : x'.Has e → P) : ∀ y ∈ some x', y.Has e → P := by
    intro y hmem
    obtain rfl := Option.some.inj hmem
    exact hy
  have hsame : s.buffer ⊆ s.buffer := List.Subset.refl _
  cases o with
  | other =>
    refine h.of_conn hx rfl hsame (hsome fun hk => ?_)
    simpa using hk.of_trySend
  | replay =>
    simp only [stepConn] at h
    split at h
    · next d rest hstage =>
      refine h.of_conn hx rfl hsame (hsome fun hk => ?_)
      have hreplaying : x.replaying = d :: rest := by rw [Conn.replaying, hstage]
      have hsent : (x.trySend (some d)).Has e := by
        refine hk.of_subset ?_ (List.Subset.refl _) ?_
        · simp [Conn.listeners, Listeners.held]
        · simp [Conn.replaying, hstage]
      rcases hsent.of_trySend with hk | ⟨d', hd', he⟩
      · exact hk
      · obtain rfl := Option.some.inj hd'
        exact .inr ⟨d, he, .inr (hreplaying ▸ List.mem_cons_self)⟩
    · exact h
  | resumed deleted =>
    simp only [stepConn] at h
    split at h
    · next hstage =>
      refine h.of_conn hx rfl (by dsimp only; split_ifs <;> simp) (hsome fun hk => ?_)
      rcases hk.of_trySend with hk | ⟨d, hd, he⟩
      · refine hk.of_subset ?_ (List.Subset.refl _) (List.nil_subset _)
        simp [Conn.listeners, Listeners.held]
      · obtain rfl := Option.some.inj hd
        cases he
    · exact h
  | spawn pg =>
    simp only [stepConn] at h
    split at h
    · refine h.of_conn hx rfl hsame (hsome fun hk => hk.of_subset ?_ (List.Subset.refl _) (List.nil_subset _))
      simp [Conn.listeners]
    · exact h
  | fail =>
    simp only [stepConn] at h
    split at h
    · exact h.of_conn hx rfl hsame (by simp)
    · exact h
  | subscribe j =>
    simp only [stepConn] at h
    split at h
    · next ls hstage =>
      refine h.of_conn hx rfl hsame (hsome fun hk => hk.of_subset ?_ (List.Subset.refl _) (List.nil_subset _))
      simp [Conn.listeners, hstage]
    · exact h
  | stop j =>
    simp only [stepConn] at h
    split at h
    · next ls hstage =>
      refine h.of_conn hx rfl hsame (hsome fun hk => hk.of_subset ?_ (List.Subset.refl _) (List.nil_subset _))
      rw [Conn.listeners, Conn.listeners, hstage]
      exact Listeners.mem_held_stop_inv
    · exact h
  | dispatch j buffered =>
    simp only [stepConn] at h
    split at h
    · next ls₀ e₀ ls hstage htake =>
      refine h.of_number hx rfl rfl (Listeners.mem_held_of_take htake) (hsome fun hk => ?_)
      rcases hk with hheld | ⟨d, he, hd | hd⟩
      · have hls : e ∈ ls.held := by
          rw [Conn.listeners] at hheld
          split_ifs at hheld
          · exact hheld
          · exact Listeners.mem_held_stop_inv hheld
        exact .inl (.inl (Listeners.mem_held_take_inv htake hls))
      · rcases Conn.mem_queue_trySend hd with hd | hd
        · exact .inl (.inr ⟨d, he, .inl hd⟩)
        · obtain rfl := Option.some.inj hd
          exact .inr (Option.some.inj he).symm
      · rw [Conn.replaying] at hd
        split_ifs at hd <;> cases hd
    · exact h
  | deliver =>
    simp only [stepConn] at h
    split at h
    · next m queue hlink hqueue =>
      have hmem : m ∈ x.queue := hqueue ▸ List.mem_cons_self
      rcases h with ⟨d, he, hd | hd⟩ | ⟨y, hy, hk⟩
      · rcases List.mem_append.1 hd with hd | hd
        · exact .inl ⟨d, he, .inl hd⟩
        · exact .inr ⟨x, hx, .inr ⟨d, he, .inl ((Option.mem_toList.1 hd) ▸ hmem)⟩⟩
      · exact .inl ⟨d, he, .inr hd⟩
      · obtain rfl := Option.some.inj hy
        exact .inr ⟨x, hx, hk.of_subset id (hqueue ▸ List.subset_cons_self m queue) (List.Subset.refl _)⟩
    · next m queue hlink hqueue =>
      refine h.of_conn hx rfl hsame (hsome fun hk => hk.of_subset id ?_ (List.Subset.refl _))
      exact hqueue ▸ List.subset_cons_self m queue
    · exact h
  | unlink => exact h.of_conn hx rfl hsame (hsome id)
  | endSender =>
    simp only [stepConn] at h
    split at h
    · exact h.of_conn hx rfl hsame (hsome fun hk => hk.of_subset id (List.nil_subset _) (List.Subset.refl _))
    · exact h
  | hangUp cut =>
    simp only [stepConn] at h
    split at h
    · next ls hstage =>
      have hlisteners : x.listeners = ls := by rw [Conn.listeners, hstage]
      have hclosing {sequence : ℕ} (hk : Conn.Has { x with sequence, stage := .closing } e) : x.Has e :=
        hk.of_subset (by simp [Conn.listeners, Listeners.held]) (List.Subset.refl _) (List.nil_subset _)
      split at h
      · exact h.of_conn hx rfl hsame (hsome hclosing)
      · split at h
        · next e₀ ls' htake =>
          refine h.of_number hx rfl rfl (hlisteners ▸ Listeners.mem_held_of_take htake) ?_
          exact hsome fun hk => .inl (hclosing hk)
        · exact h.of_conn hx rfl hsame (hsome hclosing)
    · exact h
  | close stored =>
    simp only [stepConn] at h
    split at h
    · exact h.of_conn hx rfl hsame (by simp)
    · exact h
  | _ => exact h

theorem Conn.Has.of_hear {e' : Event} (h : (x.hear e').Has e) :
    x.Has e ∨ e = e' ∧ x.listeners.hears e.subject = true := by
  rw [Conn.hear] at h
  split at h
  · next ls hstage =>
    have hlisteners : x.listeners = ls := by rw [Conn.listeners, hstage]
    rcases h with h | ⟨d, he, hd | hd⟩
    · rcases Listeners.mem_held_hear.1 h with h | ⟨h, hears⟩
      · exact .inl (.inl (hlisteners ▸ h))
      · exact .inr ⟨List.mem_singleton.1 h, hlisteners ▸ hears⟩
    · exact .inl (.inr ⟨d, he, .inl hd⟩)
    · cases hd
  · exact .inl h

/-- an event comes in when it is published and heard, and not otherwise -/
theorem step_has (o : Op) (h : (step user s o).Has e) :
    s.Has e ∨ ∃ p, o = .publish p ∧ e = ⟨s.published, p⟩ ∧ ∃ x ∈ s.conn, x.listeners.hears p.subject = true := by
  cases o with
  | publish p =>
    rcases h with h | ⟨y, hy, h⟩
    · exact .inl (.inl h)
    · obtain ⟨x, hx, rfl⟩ := Option.map_eq_some_iff.1 hy
      rcases h.of_hear with h | ⟨rfl, hears⟩
      · exact .inl (.inr ⟨x, hx, h⟩)
      · exact .inr ⟨p, rfl, rfl, x, hx, hears⟩
  | expireBuffer =>
    refine .inl (h.imp_left ?_)
    rintro ⟨d, he, hd | hd⟩
    · exact ⟨d, he, .inl hd⟩
    · cases hd
  | expireRecord => exact .inl h
  | resume waiting read =>
    simp only [step] at h
    split at h
    · next hconn hrecord =>
      rcases h with h | ⟨y, hy, h⟩
      · exact .inl (.inl h)
      · obtain rfl := Option.some.inj hy
        rcases h with h | ⟨d, he, hd | hd⟩
        · cases h
        · simp at hd
        · simp only [Conn.replaying, St.replays] at hd
          split_ifs at hd
          · exact .inl (.inl ⟨d, he, .inr (List.mem_filter.1 hd).1⟩)
          · cases hd
    · exact .inl h
  | _ =>
    simp only [step] at h
    split at h
    · next x hx => exact .inl (stepConn_has _ hx h)
    · exact .inl h

/-- what is anywhere has been published -/
def HasPublished (s : St) : Prop := ∀ e, s.Has e → e.index < s.published

theorem step_published_le (s : St) (o : Op) : s.published ≤ (step user s o).published := by
  cases o with
  | publish p => exact Nat.le_succ _
  | expireBuffer => exact le_rfl
  | expireRecord => exact le_rfl
  | resume waiting read =>
    simp only [step]
    split <;> exact le_rfl
  | _ =>
    simp only [step]
    split
    · next x hx => exact (stepConn_published user s x _).1.ge
    · exact le_rfl

theorem step_hasPublished (s : St) (o : Op) (h : HasPublished s) : HasPublished (step user s o) := by
  intro e he
  rcases step_has o he with he | ⟨p, rfl, rfl, -⟩
  · exact (h e he).trans_le (step_published_le s o)
  · exact Nat.lt_succ_self _

/-- the event has gone by -/
def Missed (e : Event) (s : St) : Prop := e.index < s.published ∧ ¬ s.Has e

theorem step_missed (s : St) (o : Op) (h : Missed e s) : Missed e (step user s o) := by
  refine ⟨h.1.trans_le (step_published_le s o), fun he => ?_⟩
  rcases step_has o he with he | ⟨p, rfl, rfl, -⟩
  · exact h.2 he
  · exact absurd h.1 (lt_irrefl _)

theorem identify_hasPublished (waiting : ℕ) : HasPublished (identify waiting) := by
  rintro e (⟨d, -, hd | hd⟩ | ⟨y, hy, h⟩)
  · cases hd
  · cases hd
  · obtain rfl := Option.some.inj hy
    rcases h.of_trySend with (h | ⟨d, he, hd | hd⟩) | ⟨d, hd, he⟩
    · cases h
    · simp at hd
    · cases hd
    · obtain rfl := Option.some.inj hd
      cases he

/-- **An event that no listener hears is lost.** Whatever happens afterwards, however often the session is resumed, the
client never receives it. -/
theorem unheard_lost (waiting : ℕ) (before after : List Op) (p : Publication)
    (h : ∀ x ∈ (run (step user) (identify waiting) before).conn, x.listeners.hears p.subject = false) :
    ⟨(run (step user) (identify waiting) before).published, p⟩ ∉
      (run (step user) (identify waiting) (before ++ .publish p :: after)).events := by
  have hpublished : HasPublished (run (step user) (identify waiting) before) :=
    run_inv step_hasPublished (identify_hasPublished waiting) before
  rw [run_append, run_cons]
  generalize run (step user) (identify waiting) before = s at h hpublished
  have hmissed : Missed ⟨s.published, p⟩ (step user s (.publish p)) := by
    refine ⟨Nat.lt_succ_self _, fun he => ?_⟩
    rcases step_has _ he with he | ⟨p', hp, he, x, hx, hears⟩
    · exact absurd (hpublished _ he) (lt_irrefl _)
    · cases hp
      rw [h x hx] at hears
      cases hears
  intro he
  obtain ⟨d, hd, he⟩ := List.mem_filterMap.1 he
  exact (run_inv step_missed hmissed after).2 (.inl ⟨d, he, .inl hd⟩)

/-! ## A resume that succeeds without an event -/

/-- the n-th event of server 100 -/
def announce (n : ℤ) : Op := .publish ⟨serverEvents 100, .guildMemberRemove 100 n⟩

def relistenTrace : List Op := [.spawn joined.pg, .subscribe 0, .subscribe 1]

/-- the second event is numbered while the connection is down -/
def missTrace : List Op :=
  [.dispatch 1 true, .deliver, .unlink, announce 2, .dispatch 1 true] ++ closeTrace ++ resumeTrace 1 ++ relistenTrace

theorem no_event_lost_missed :
    let before := listenTrace ++ [announce 1]
    let s := run (step 2) (identify 0) before
    let s' := run (step 2) (identify 0) (before ++ missTrace)
    s'.owed.length = 2 ∧ ∀ e ∈ s'.owed, s.published ≤ e.index → e ∈ s'.events :=
  ⟨by decide, no_event_lost 0 (listenTrace ++ [announce 1]) missTrace (by decide) (by decide)⟩

/-- the second event is published once the listeners are aborted -/
def awayTrace : List Op :=
  [.dispatch 1 true, .deliver] ++ closeTrace ++ [announce 2] ++ resumeTrace 0 ++ relistenTrace

/-- **What is published while the client is away is gone.** The client resumes with the largest number that it has
received, the session listens again and nothing is on its way, and the second event has not come. -/
theorem published_while_away :
    let s := run (step 2) (identify 0) (listenTrace ++ [announce 1] ++ awayTrace)
    Settled s ∧ s.events.map Event.index = [0] ∧ ¬ ∀ e ∈ s.owed, 1 ≤ e.index → e ∈ s.events := by
  decide

end Resumption

end Lumiere.Gateway
