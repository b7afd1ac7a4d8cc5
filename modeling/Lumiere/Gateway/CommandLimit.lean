/-
The rate limit of a gateway connection (`handle_connection` in `lumiere-gateway/src/handler.rs`): text frames are counted
in windows of a minute, and the connection ends with the one that is too many.

A frame is counted when the loop comes to it, which may be later than the client sent it.

- `command_limit`: by the times of counting, at most 240 frames are looked at in any minute, and one that is at most the
  120th of a minute is. So of a client that sends no more than 120 in a minute and the longest delay of its frames, all
  are, as long as the connection does not end for another reason.
-/
import Lumiere.Core.FixedWindow
import Lumiere.Gateway.Connection

namespace Lumiere.Gateway.Connection

open Lumiere.Core

variable {κ : Type} (conn : κ)

/-- milliseconds; a window is over when more than 60 seconds have passed -/
def commandWindow : ℕ := 60001

/-- when the text frames are counted -/
def texts (frames : List Frame) : List ℕ :=
  frames.filterMap fun frame =>
    match frame with
    | .text now _ => some now
    | _ => none

/-- when a frame is counted that the limit lets through -/
def letThrough (s : St κ) : Frame → List ℕ
  | .text now _ => if s.isOpen ∧ (countCommand s now).commandCount ≤ maxCommandsPerMinute then [now] else []
  | _ => []

def handled : St κ → List Frame → List ℕ
  | _, [] => []
  | s, frame :: frames => letThrough s frame ++ handled (step conn s frame) frames

def window (s : St κ) : Window := ⟨some s.windowStart, s.commandCount⟩

variable {conn} {s : St κ}

theorem window_countCommand (s : St κ) (now : ℕ) : window (countCommand s now) = (window s).hit commandWindow now := by
  have hiff : 60000 < now - s.windowStart ↔ ¬ now < s.windowStart + 60001 := by omega
  unfold countCommand Window.hit Window.isOpen window commandWindow
  simp only [hiff, Option.any_some, decide_eq_true_eq]
  split_ifs with h <;> rfl

theorem window_handleMessage (s : St κ) (m : Message) : window (handleMessage conn s m) = window s := by
  have hsettle : ∀ r : Except String (GatewaySession κ) × Manager κ, window (settle s r) = window s := by
    intro r
    obtain ⟨e | x, manager⟩ := r <;> rfl
  cases m with
  | identify payload =>
    unfold handleMessage
    split_ifs
    · rfl
    · cases payload with
      | none => rfl
      | some calls => exact hsettle _
  | resume payload =>
    cases payload with
    | none => rfl
    | some p => exact hsettle _
  | heartbeat => rfl
  | presenceUpdate => rfl
  | unknown => rfl

/-- a text frame is counted -/
theorem window_step_text (conn : κ) (h : s.isOpen = true) (now : ℕ) (message : Option Message) :
    window (step conn s (.text now message)) = (window s).hit commandWindow now := by
  rw [← window_countCommand]
  unfold step
  rw [if_pos h]
  dsimp only
  split_ifs
  · rfl
  · cases message with
    | none => rfl
    | some m => exact window_handleMessage _ m

theorem step_stop (h : s.isOpen = true) : step conn s .stop = close s := by
  unfold step
  rw [if_pos h]

theorem step_other (h : s.isOpen = true) : step conn s .other = s := by
  unfold step
  rw [if_pos h]

theorem step_of_closed (h : s.isOpen = false) (frame : Frame) : step conn s frame = s := by
  unfold step
  rw [if_neg (by simp [h])]

theorem isOpen_of_step {frame : Frame} (h : (step conn s frame).isOpen = true) : s.isOpen = true := by
  by_contra hclosed
  rw [step_of_closed (by simpa using hclosed)] at h
  exact hclosed h

/-- a frame that is too many ends the connection -/
theorem step_text_closed {now : ℕ} (ho : s.isOpen = true)
    (h : maxCommandsPerMinute < (countCommand s now).commandCount) (message : Option Message) :
    (step conn s (.text now message)).isOpen = false := by
  unfold step
  rw [if_pos ho]
  dsimp only
  rw [if_pos h]
  rfl

theorem handled_of_closed (h : s.isOpen = false) (frames : List Frame) : handled conn s frames = [] := by
  induction frames with
  | nil => rfl
  | cons frame frames ih =>
    rw [handled, step_of_closed h, ih, List.append_nil]
    cases frame <;> simp [letThrough, h]

/-- what is let through passes the window -/
theorem handled_sublist (s : St κ) (frames : List Frame) :
    (handled conn s frames).Sublist ((window s).passed commandWindow maxCommandsPerMinute (texts frames)) := by
  induction frames generalizing s with
  | nil => exact List.Sublist.refl _
  | cons frame frames ih =>
    by_cases ho : s.isOpen = true
    · cases frame with
      | stop =>
        rw [handled, step_stop ho, handled_of_closed rfl]
        exact List.nil_sublist _
      | other =>
        rw [handled, step_other ho]
        exact ih s
      | text now message =>
        have htexts : texts (.text now message :: frames) = now :: texts frames := rfl
        have hcount : (window (step conn s (.text now message))).count = (countCommand s now).commandCount := by
          rw [window_step_text conn ho, ← window_countCommand]
          rfl
        rw [handled, htexts, Window.passed, ← window_step_text conn ho now message, hcount, letThrough]
        by_cases hpass : (countCommand s now).commandCount ≤ maxCommandsPerMinute
        · simp only [ho, hpass, and_self, if_true]
          exact (ih _).append_left _
        · rw [handled_of_closed (step_text_closed ho (not_le.mp hpass) message)]
          simp [hpass]
    · rw [handled_of_closed (by simpa using ho)]
      exact List.nil_sublist _

theorem texts_append (frames frames' : List Frame) : texts (frames ++ frames') = texts frames ++ texts frames' :=
  List.filterMap_append

/-- while the connection goes on, its window is that of the text frames -/
theorem window_run (s : St κ) (frames : List Frame) (h : (run (step conn) s frames).isOpen = true) :
    window (run (step conn) s frames) = run (Window.hit commandWindow) (window s) (texts frames) := by
  induction frames using List.reverseRecOn with
  | nil => rfl
  | append_singleton frames frame ih =>
    rw [run_snoc] at h ⊢
    have ho := isOpen_of_step h
    rw [texts_append, run_append, ← ih ho]
    cases frame with
    | text now message => exact window_step_text conn ho now message
    | stop =>
      rw [step_stop ho] at h
      cases h
    | other =>
      rw [step_other ho]
      rfl

theorem countP_le_of_forall₂ {α β : Type} {R : α → β → Prop} {p : β → Bool} {q : α → Bool} {l : List α} {l' : List β}
    (h : List.Forall₂ R l l') (hpq : ∀ x y, R x y → p y = true → q x = true) : l'.countP p ≤ l.countP q := by
  induction h with
  | nil => exact Nat.le_refl _
  | @cons x y l l' hxy _ ih =>
    have hhead := hpq x y hxy
    rw [List.countP_cons, List.countP_cons]
    cases hp : p y with
    | false =>
      simp only [Bool.false_eq_true, if_false]
      omega
    | true =>
      rw [if_pos rfl, if_pos (hhead hp)]
      omega

/-- of the frames up to one, those of its last minute were sent in a minute and the delay -/
theorem countP_le_sent {sent ts later : List ℕ} {now delay : ℕ}
    (h : List.Forall₂ (fun s t => s ≤ t ∧ t ≤ s + delay) sent (ts ++ [now] ++ later))
    (hsorted : (ts ++ [now]).Pairwise (· ≤ ·)) :
    (ts ++ [now]).countP (fun t => now ≤ t + 60000) ≤
      sent.countP fun s => now - (60000 + delay) ≤ s ∧ s ≤ now - (60000 + delay) + (60000 + delay) := by
  have hle : ∀ t ∈ ts ++ [now], t ≤ now := by
    intro t ht
    rcases List.mem_append.mp ht with hbefore | hlast
    · exact (List.pairwise_append.mp hsorted).2.2 t hbefore now (List.mem_singleton_self now)
    · exact (List.mem_singleton.mp hlast).le
  have hprefix := List.forall₂_take_append sent (ts ++ [now]) later h
  have hcount : (ts ++ [now]).countP (fun t => now ≤ t + 60000) ≤ (ts ++ [now]).countP fun t => t ≤ now ∧ now ≤ t + 60000 :=
    List.countP_mono_left fun t ht hnow => by simpa [hle t ht] using hnow
  refine hcount.trans ((countP_le_of_forall₂ hprefix ?_).trans (List.take_sublist _ sent).countP_le)
  intro s t hst ht
  simp only [decide_eq_true_eq] at ht ⊢
  omega

/-- **The rate of a connection.** -/
theorem command_limit (conn : κ) (manager : Manager κ) (begin : ℕ) (frames : List Frame)
    (hbegin : ∀ t ∈ texts frames, begin ≤ t) (hsorted : (texts frames).Pairwise (· ≤ ·)) :
    (∀ a, (handled conn (start manager begin) frames).countP (fun t => a ≤ t ∧ t ≤ a + 60000) ≤ 240) ∧
      ∀ before now message after, frames = before ++ .text now message :: after →
        (run (step conn) (start manager begin) before).isOpen = true →
        ((texts before ++ [now]).countP (fun t => now ≤ t + 60000) ≤ 120 ∨
          ∃ delay sent, List.Forall₂ (fun s t => s ≤ t ∧ t ≤ s + delay) sent (texts frames) ∧
            ∀ a, sent.countP (fun s => a ≤ s ∧ s ≤ a + (60000 + delay)) ≤ 120) →
        served (run (step conn) (start manager begin) before) (.text now message) = message := by
  have hbefore : ∀ t ∈ texts frames, (window (start manager begin)).Before t := by
    intro t ht first hfirst
    obtain rfl := Option.some.inj hfirst
    exact hbegin t ht
  constructor
  · intro a
    have hle : ((window (start manager begin)).passed commandWindow maxCommandsPerMinute (texts frames)).countP
        (fun t => a ≤ t ∧ t < a + commandWindow) ≤ 2 * maxCommandsPerMinute :=
      Window.passed_le (by decide) a hsorted fun t ht => hbefore t (List.mem_of_head? ht)
    have hminute : (fun t => decide (a ≤ t ∧ t ≤ a + 60000)) = fun t => decide (a ≤ t ∧ t < a + commandWindow) := by
      funext t
      simp [commandWindow, Nat.lt_succ_iff]
    rw [hminute]
    exact (handled_sublist (start manager begin) frames).countP_le.trans hle
  · intro before now message after hframes ho hrate
    have htexts : texts frames = texts before ++ [now] ++ texts after := by
      rw [hframes, texts_append, List.append_assoc]
      rfl
    have hbegins : texts before ++ [now] <+: texts frames := ⟨texts after, htexts.symm⟩
    have hsparse : (texts before ++ [now]).countP (fun t => now ≤ t + 60000) ≤ 120 := by
      rcases hrate with hcounted | ⟨delay, sent, hdelay, hsent⟩
      · exact hcounted
      · exact (countP_le_sent (htexts ▸ hdelay) (hsorted.sublist hbegins.sublist)).trans (hsent _)
    have hsparse : (texts before ++ [now]).countP (fun t => now < t + commandWindow) ≤ maxCommandsPerMinute := by
      simpa [commandWindow, maxCommandsPerMinute, Nat.lt_succ_iff] using hsparse
    have hcounts : (window (start manager begin)).Counts [] := by simp [Window.Counts, window, start]
    have hpass : ((run (Window.hit commandWindow) (window (start manager begin)) (texts before)).hit commandWindow
        now).count ≤ maxCommandsPerMinute :=
      Window.passes_of_sparse (by decide) hcounts (hsorted.sublist hbegins.sublist)
        (fun t ht => hbefore t (hbegins.subset ht)) hsparse
    rw [← window_run _ _ ho, ← window_countCommand] at hpass
    exact if_pos ⟨ho, hpass⟩

/-- a greeting and two heartbeats, the second of which is sent at 69000 and counted a second later -/
def twoHeartbeats : List Frame := [.other, .text 5 (some .heartbeat), .text 70000 (some .heartbeat)]

theorem command_limit_two :
    served (run (step ()) (start ⟨fun _ => none, fun _ => none⟩ 5) (twoHeartbeats.take 2))
      (.text 70000 (some .heartbeat)) = some .heartbeat := by
  have hdelay : List.Forall₂ (fun s t => s ≤ t ∧ t ≤ s + 1000) [5, 69000] (texts twoHeartbeats) :=
    .cons ⟨by decide, by decide⟩ (.cons ⟨by decide, by decide⟩ .nil)
  exact (command_limit () ⟨fun _ => none, fun _ => none⟩ 5 twoHeartbeats (by decide) (by decide)).2 (twoHeartbeats.take 2)
    70000 (some .heartbeat) [] rfl rfl (.inr ⟨1000, [5, 69000], hdelay, fun _ => List.countP_le_length.trans (by decide)⟩)

end Lumiere.Gateway.Connection
