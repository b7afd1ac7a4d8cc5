/-
How often a user can be renamed (`update_me` in `routes/users.rs`). A script counts the requests for another name at
`username_change:{}`, which expires an hour after the first of them, and the third is refused. A name that is taken
counts, and where Redis does not answer, nothing is counted against the user.

Requests run side by side. After the script a request asks whether the name is taken, and then updates the row: other
requests come between, time passes, and either query can fail. A request that is dropped gets no further turn.

- `limited_iff`: which requests are refused for their number.
- `granted_sublist`: the requests that are not are among those that pass the window.
- `rename_limit`: while Redis answers, at most three of the requests that rename a user are counted in any hour. So if
  none writes later than some delay after it was counted, at most three write in any hour less the delay. A user who
  asks no more than twice in any hour is never refused for it.
-/
import Lumiere.Core.Calls
import Lumiere.Core.FixedWindow
import Lumiere.Routes.Profile

namespace Lumiere.Routes.UsernameChanges

open Lumiere.Core Lumiere.Core.Prog Lumiere.Models Lumiere.Db

/-! ## The system -/

/-- what becomes of the script: it runs and answers, it runs and the answer is lost, or it does not run -/
inductive Script where
  | answers
  | answerLost
  | fails
deriving DecidableEq, Repr

/-- a request that has come as far as the script -/
structure Ask where
  auth : ℤ
  body : UpdateProfileRequest
  script : Script
  /-- `unwrap_or(0)` -/
  count : ℤ
  /-- milliseconds -/
  time : ℕ

structure Request where
  ask : Ask
  rest : AccountHandler FullUser
  /-- when its `UPDATE` wrote the row -/
  written : Option ℕ

structure St where
  accounts : Accounts
  /-- milliseconds -/
  now : ℕ
  /-- `username_change:{}` -/
  counts : ℤ → Window
  /-- in the order in which they came to the script -/
  requests : List Request

inductive Op where
  | tick (n : ℕ)
  /-- other requests write accounts -/
  | write (accounts : Accounts)
  | updateMe (auth : ℤ) (body : UpdateProfileRequest) (script : Script)
  /-- a request gets its next query done -/
  | advance (i : ℕ)
  /-- or the query comes back with an error -/
  | interrupt (i : ℕ) (e : DbError)

/-- milliseconds -/
def hour : ℕ := 3600 * 1000

/-- the request gets to the script -/
def counted (body : UpdateProfileRequest) : Bool := body.validate = [] && body.username.isSome

/-- the next query. `UPDATE` returns the row itself, so nothing comes between the two -/
def next (p : AccountHandler FullUser) (accounts : Accounts) : AccountHandler FullUser × Accounts :=
  if p.pending.isSome then (ofExcept (p.run accountStatement accounts).1, (p.run accountStatement accounts).2)
  else p.advance accountStatement accounts

def Request.advance (accounts : Accounts) (now : ℕ) (r : Request) : Request :=
  { r with
    rest := (next r.rest accounts).1
    written := if r.rest.pending.isSome ∧ (next r.rest accounts).1.succeeded then some now else r.written }

def Request.interrupt (e : DbError) (r : Request) : Request := { r with rest := r.rest.interrupt (dbErr e) }

namespace St

variable (s : St)

/-- `INCR`, and `EXPIRE` if it is the first -/
def count (auth : ℤ) : Window := (s.counts auth).hit hour s.now

def answer (auth : ℤ) : Script → ℤ
  | .answers => (s.count auth).count
  | .answerLost | .fails => 0

def ask (auth : ℤ) (body : UpdateProfileRequest) (script : Script) : Ask :=
  ⟨auth, body, script, s.answer auth script, s.now⟩

def updateMe (auth : ℤ) (body : UpdateProfileRequest) (script : Script) : St :=
  { s with
    counts := if counted body ∧ script ≠ .fails then Function.update s.counts auth (s.count auth) else s.counts
    requests := s.requests ++
      [⟨s.ask auth body script, Routes.updateMe auth body (s.ask auth body script).count, none⟩] }

def asks : List Ask := s.requests.map Request.ask

end St

def step (s : St) : Op → St
  | .tick n => { s with now := s.now + n }
  | .write accounts => { s with accounts }
  | .updateMe auth body script => s.updateMe auth body script
  | .advance i =>
    { s with
      accounts := (s.requests[i]?.map fun r => (next r.rest s.accounts).2).getD s.accounts
      requests := s.requests.modify i (Request.advance s.accounts s.now) }
  | .interrupt i e => { s with requests := s.requests.modify i (Request.interrupt e) }

def init (accounts : Accounts) (now : ℕ) : St := ⟨accounts, now, fun _ => .empty, []⟩

variable (userId : ℤ)

/-- when the script counted something against the user -/
def asked (l : List Ask) : List ℕ :=
  (l.filter fun a => a.auth = userId ∧ counted a.body ∧ a.script ≠ .fails).map Ask.time

/-- `username_change:{}` after these requests -/
def window (l : List Ask) : Window := Core.run (Window.hit hour) .empty (asked userId l)

/-- the requests that gave the user a name -/
def renamed (s : St) : List Request :=
  s.requests.filter fun r => r.ask.auth = userId ∧ r.ask.body.username.isSome ∧ r.written.isSome

/-- Redis answers to the user -/
def Answers (o : Op) : Prop := ∀ body script, o = .updateMe userId body script → script = .answers

/-! ## One request -/

variable {userId} {s : St} {o : Op} {ops : List Op} {auth count : ℤ} {body : UpdateProfileRequest}

theorem updateMe_invalid (h : body.validate ≠ []) : updateMe auth body count = .fail (.validation body.validate) := by
  rw [updateMe, failIf, if_pos h]
  rfl

theorem updateMe_limited (hcounted : counted body = true) (hcount : 2 < count) :
    updateMe auth body count = .fail (.rateLimited 3600) := by
  unfold counted at hcounted
  rw [Bool.and_eq_true, decide_eq_true_eq, Option.isSome_iff_exists] at hcounted
  obtain ⟨hvalid, name, hname⟩ := hcounted
  have hcheck : checkUsername auth count name = .fail (.rateLimited 3600) := by
    rw [checkUsername, failIf, if_pos hcount]
    rfl
  rw [updateMe, failIf, if_neg (by simp [hvalid]), hname]
  show checkUsername auth count name >>= _ = _
  rw [hcheck]
  rfl

theorem updateProfile_failsWith (changes : ProfileChanges) :
    (updateProfile auth changes).FailsWith (· ≠ .rateLimited 3600) := fun _ _ => trivial

/-- the rest of a request is not refused for a number -/
theorem updateMe_failsWith (h : ¬ (counted body = true ∧ 2 < count)) :
    (updateMe auth body count).FailsWith (· ≠ .rateLimited 3600) := by
  by_cases hvalid : body.validate = []
  · have hname : (body.username.forM (checkUsername auth count)).FailsWith (· ≠ .rateLimited 3600) := by
      cases hname : body.username with
      | none => trivial
      | some name =>
        have hle : ¬ 2 < count := fun hcount => h ⟨by simp [counted, hvalid, hname], hcount⟩
        exact failsWith_bind (failsWith_failIf fun hcount => absurd hcount hle) fun _ =>
          failsWith_bind (fun _ => trivial) fun _ => failsWith_failIf fun _ => by simp
    refine failsWith_bind (failsWith_failIf fun hinvalid => absurd hvalid hinvalid) fun _ => ?_
    refine failsWith_bind hname fun _ => failsWith_bind (failsWith_failIf fun _ => by simp) fun _ => ?_
    exact failsWith_bind (updateProfile_failsWith _) fun _ => failsWith_orFail (by simp)
  · rw [updateMe_invalid hvalid]
    show AppError.validation body.validate ≠ .rateLimited 3600
    simp

/-- **Which requests are refused for their number.** -/
theorem limited_iff : updateMe auth body count = .fail (.rateLimited 3600) ↔ counted body = true ∧ 2 < count := by
  constructor
  · intro hlimited
    by_contra h
    have hfails : (updateMe auth body count).FailsWith (· ≠ .rateLimited 3600) := updateMe_failsWith h
    rw [hlimited] at hfails
    exact hfails rfl
  · intro h
    obtain ⟨hcounted, hcount⟩ := h
    exact updateMe_limited hcounted hcount

theorem accountStatement_error (w : AccountStmt) (accounts : Accounts) (e : AppError)
    (h : accountStatement w accounts = .error e) : e ≠ .rateLimited 3600 := by
  unfold accountStatement at h
  rcases hexec : accounts.exec w with e' | r
  · rw [hexec] at h
    obtain rfl := Except.error.inj h
    simp [dbErr]
  · rw [hexec] at h
    cases h

theorem next_failsWith {p : AccountHandler FullUser} (hp : p.FailsWith (· ≠ .rateLimited 3600)) (accounts : Accounts) :
    (next p accounts).1.FailsWith (· ≠ .rateLimited 3600) := by
  unfold next
  split_ifs
  · refine failsWith_ofExcept fun e he => ?_
    exact failsWith_run accountStatement_error hp (Prod.ext he rfl)
  · exact failsWith_advance accountStatement_error hp accounts

/-! ## What holds of the requests -/

/-- before its first query -/
def Ask.Refused (a : Ask) : Prop := a.body.validate ≠ [] ∨ counted a.body = true ∧ 2 < a.count

structure Request.Sound (now : ℕ) (r : Request) : Prop where
  refused : r.ask.Refused → (∃ e, r.rest = .fail e) ∧ r.written = none
  unlimited : ¬ (counted r.ask.body = true ∧ 2 < r.ask.count) → r.rest.FailsWith (· ≠ .rateLimited 3600)
  began : r.ask.time ≤ now
  later : ∀ t ∈ r.written, r.ask.time ≤ t

theorem sound_start (a : Ask) : Request.Sound a.time ⟨a, updateMe a.auth a.body a.count, none⟩ where
  refused := by
    rintro (hinvalid | ⟨hcounted, hcount⟩)
    · exact ⟨⟨_, updateMe_invalid hinvalid⟩, rfl⟩
    · exact ⟨⟨_, updateMe_limited hcounted hcount⟩, rfl⟩
  unlimited := updateMe_failsWith
  began := le_rfl
  later := by simp

theorem Request.Sound.mono {now now' : ℕ} {r : Request} (h : r.Sound now) (hle : now ≤ now') : r.Sound now' :=
  ⟨h.refused, h.unlimited, h.began.trans hle, h.later⟩

theorem Request.Sound.advance {now : ℕ} {r : Request} (h : r.Sound now) (accounts : Accounts) :
    (r.advance accounts now).Sound now where
  refused := by
    intro hrefused
    obtain ⟨⟨e, he⟩, hwritten⟩ := h.refused hrefused
    simp [Request.advance, he, hwritten, next, pending, Prog.advance]
  unlimited hunlimited := next_failsWith (h.unlimited hunlimited) accounts
  began := h.began
  later := by
    intro t ht
    unfold Request.advance at ht
    dsimp only at ht
    split_ifs at ht
    · obtain rfl := Option.some.inj ht
      exact h.began
    · exact h.later t ht

theorem Request.Sound.interrupt {now : ℕ} {r : Request} (h : r.Sound now) (e : DbError) :
    (r.interrupt e).Sound now where
  refused := by
    intro hrefused
    obtain ⟨⟨e', he'⟩, hwritten⟩ := h.refused hrefused
    exact ⟨⟨e', by rw [Request.interrupt, he']; rfl⟩, hwritten⟩
  unlimited hunlimited := failsWith_interrupt (by simp [dbErr]) (h.unlimited hunlimited)
  began := h.began
  later := h.later

/-- what the script answers is what it has counted -/
def Recorded (l : List Ask) : Prop :=
  ∀ (earlier : List Ask) (a : Ask), earlier ++ [a] <+: l → a.script = .answers →
    a.count = ((window a.auth earlier).hit hour a.time).count

theorem recorded_append {l : List Ask} {a : Ask} (h : Recorded l)
    (ha : a.script = .answers → a.count = ((window a.auth l).hit hour a.time).count) :
    Recorded (l ++ [a]) := by
  intro earlier b hb
  rcases List.prefix_concat_iff.mp hb with heq | hprefix
  · obtain ⟨rfl, hlast⟩ := List.append_inj' heq rfl
    obtain rfl := List.singleton_inj.mp hlast
    exact ha
  · exact h earlier b hprefix

theorem asked_append (l l' : List Ask) : asked userId (l ++ l') = asked userId l ++ asked userId l' := by
  rw [asked, asked, asked, List.filter_append, List.map_append]

theorem asked_singleton (a : Ask) :
    asked userId [a] = if a.auth = userId ∧ counted a.body = true ∧ a.script ≠ .fails then [a.time] else [] := by
  unfold asked
  by_cases ha : a.auth = userId ∧ counted a.body = true ∧ a.script ≠ .fails
  · rw [if_pos ha, List.filter_cons_of_pos (by simpa using ha)]
    rfl
  · rw [if_neg ha, List.filter_cons_of_neg (by simpa using ha)]
    rfl

/-- **The requests that are not refused for their number pass the window.** -/
theorem granted_sublist {l : List Ask} (h : Recorded l) (hanswers : ∀ a ∈ l, a.auth = userId → a.script = .answers) :
    ((l.filter fun a => a.auth = userId ∧ counted a.body ∧ a.count ≤ 2).map Ask.time).Sublist
      (Window.passed hour 2 .empty (asked userId l)) := by
  induction l using List.reverseRecOn with
  | nil => exact List.Sublist.refl _
  | append_singleton l a ih =>
    have hl := ih (fun earlier b hb => h earlier b (hb.trans (List.prefix_append l [a])))
      fun b hb => hanswers b (List.mem_append_left _ hb)
    rw [List.filter_append, List.map_append, asked_append, Window.passed_append, ← window]
    refine hl.append ?_
    by_cases ha : a.auth = userId ∧ counted a.body = true
    · obtain ⟨rfl, hcounted⟩ := ha
      have hscript := hanswers a (by simp) rfl
      have hcount := h l a (List.prefix_refl _) hscript
      rw [asked_singleton, if_pos ⟨rfl, hcounted, by simp [hscript]⟩, Window.passed, Window.passed, List.append_nil]
      by_cases hle : ((window a.auth l).hit hour a.time).count ≤ 2
      · rw [if_pos hle]
        exact List.filter_sublist.map Ask.time
      · have hover : ¬ a.count ≤ 2 := by omega
        rw [if_neg hle, List.filter_cons_of_neg (by simp [hover])]
        exact List.Sublist.refl _
    · have hother : ¬ (a.auth = userId ∧ counted a.body = true ∧ a.count ≤ 2) := by tauto
      rw [List.filter_cons_of_neg (by simpa using hother)]
      exact List.nil_sublist _

/-! ## Runs -/

structure Inv (s : St) : Prop where
  sound : ∀ r ∈ s.requests, r.Sound s.now
  recorded : Recorded s.asks
  counts : ∀ userId, s.counts userId = window userId s.asks
  sorted : (s.asks.map Ask.time).Pairwise (· ≤ ·)

theorem asks_updateMe (s : St) (auth : ℤ) (body : UpdateProfileRequest) (script : Script) :
    (s.updateMe auth body script).asks = s.asks ++ [s.ask auth body script] := List.map_append

theorem asks_advance (s : St) (i : ℕ) : (step s (.advance i)).asks = s.asks :=
  map_modify (f := Request.advance s.accounts s.now) (g := Request.ask) (fun _ => rfl) s.requests i

theorem asks_interrupt (s : St) (i : ℕ) (e : DbError) : (step s (.interrupt i e)).asks = s.asks :=
  map_modify (f := Request.interrupt e) (g := Request.ask) (fun _ => rfl) s.requests i

/-- one request goes on -/
theorem inv_modify {f : Request → Request} (h : Inv s) (hsound : ∀ r : Request, r.Sound s.now → (f r).Sound s.now)
    (hask : ∀ r, (f r).ask = r.ask) (accounts : Accounts) (i : ℕ) :
    Inv { s with accounts, requests := s.requests.modify i f } := by
  have hasks : ({ s with accounts, requests := s.requests.modify i f } : St).asks = s.asks :=
    map_modify hask s.requests i
  refine ⟨?_, hasks ▸ h.recorded, hasks ▸ h.counts, hasks ▸ h.sorted⟩
  intro r hr
  obtain ⟨j, hj⟩ := List.mem_iff_getElem?.mp hr
  rw [List.getElem?_modify, Option.map_eq_map, Option.map_eq_some_iff] at hj
  obtain ⟨r', hr', rfl⟩ := hj
  have hr' := h.sound r' (List.mem_of_getElem? hr')
  split_ifs
  · exact hsound r' hr'
  · exact hr'

theorem inv_updateMe (h : Inv s) (auth : ℤ) (body : UpdateProfileRequest) (script : Script) :
    Inv (s.updateMe auth body script) := by
  refine ⟨?_, ?_, ?_, ?_⟩
  · intro r hr
    rcases List.mem_append.mp hr with hold | hnew
    · exact h.sound r hold
    · obtain rfl := List.mem_singleton.mp hnew
      exact sound_start (s.ask auth body script)
  · rw [asks_updateMe]
    refine recorded_append h.recorded fun hscript => ?_
    obtain rfl : script = .answers := hscript
    rw [← h.counts]
    rfl
  · intro userId
    rw [asks_updateMe, window, asked_append, Core.run_append, ← window, ← h.counts, asked_singleton]
    by_cases hcounted : counted body = true ∧ script ≠ .fails
    · by_cases hauth : auth = userId
      · subst hauth
        simp [St.updateMe, St.ask, St.count, hcounted]
      · simp [St.updateMe, St.ask, hcounted, hauth, Function.update_of_ne (Ne.symm hauth)]
    · rw [if_neg fun hasked => hcounted hasked.2]
      simp only [St.updateMe, hcounted, if_false, run_nil]
  · rw [asks_updateMe, List.map_append]
    refine List.pairwise_append.mpr ⟨h.sorted, List.pairwise_singleton _ _, ?_⟩
    intro t ht t' ht'
    obtain ⟨a, ha, rfl⟩ := List.mem_map.mp ht
    obtain ⟨r, hr, rfl⟩ := List.mem_map.mp ha
    obtain rfl := List.mem_singleton.mp ht'
    exact (h.sound r hr).began

/-- **Every step keeps it.** -/
theorem inv_step (s : St) (o : Op) (h : Inv s) : Inv (step s o) := by
  cases o with
  | tick n => exact ⟨fun r hr => (h.sound r hr).mono (Nat.le_add_right _ _), h.recorded, h.counts, h.sorted⟩
  | write accounts => exact ⟨h.sound, h.recorded, h.counts, h.sorted⟩
  | updateMe auth body script => exact inv_updateMe h auth body script
  | advance i =>
    have hsound : ∀ r : Request, r.Sound s.now → (r.advance s.accounts s.now).Sound s.now := fun r hr =>
      hr.advance s.accounts
    exact inv_modify h hsound (fun _ => rfl) _ i
  | interrupt i e =>
    have hsound : ∀ r : Request, r.Sound s.now → (r.interrupt e).Sound s.now := fun r hr => hr.interrupt e
    exact inv_modify h hsound (fun _ => rfl) s.accounts i

theorem inv_init (accounts : Accounts) (now : ℕ) : Inv (init accounts now) where
  sound := by simp [init]
  recorded := by
    intro earlier a ha
    simp [St.asks, init] at ha
  counts := fun _ => rfl
  sorted := List.Pairwise.nil

theorem inv_run (accounts : Accounts) (now : ℕ) (ops : List Op) : Inv (Core.run step (init accounts now) ops) :=
  run_inv inv_step (inv_init accounts now) ops

theorem answers_step (h : ∀ a ∈ s.asks, a.auth = userId → a.script = .answers) (ho : Answers userId o) :
    ∀ a ∈ (step s o).asks, a.auth = userId → a.script = .answers := by
  cases o with
  | tick n => exact h
  | write accounts => exact h
  | updateMe auth body script =>
    intro a ha hauth
    rw [step, asks_updateMe] at ha
    rcases List.mem_append.mp ha with hold | hnew
    · exact h a hold hauth
    · obtain rfl := List.mem_singleton.mp hnew
      obtain rfl : auth = userId := hauth
      exact ho body script rfl
  | advance i =>
    rw [asks_advance]
    exact h
  | interrupt i e =>
    rw [asks_interrupt]
    exact h

theorem answers_run (accounts : Accounts) (now : ℕ) (h : ∀ o ∈ ops, Answers userId o) :
    ∀ a ∈ (Core.run step (init accounts now) ops).asks, a.auth = userId → a.script = .answers :=
  run_inv_of_every (I := fun s : St => ∀ a ∈ s.asks, a.auth = userId → a.script = .answers)
    (fun _ _ ho hs => answers_step hs ho) (by simp [St.asks, init]) (every_of_forall h)

/-! ## The limit -/

/-- a request that has renamed the user was not refused -/
theorem granted_of_renamed {now : ℕ} {r : Request} (h : r.Sound now) (hname : r.ask.body.username.isSome = true)
    (hwritten : r.written.isSome = true) : counted r.ask.body = true ∧ r.ask.count ≤ 2 := by
  have hpassed : ¬ r.ask.Refused := by
    intro hrefused
    rw [(h.refused hrefused).2] at hwritten
    cases hwritten
  rw [Ask.Refused, not_or, not_not] at hpassed
  obtain ⟨hvalid, hunder⟩ := hpassed
  have hcounted : counted r.ask.body = true := by simp [counted, hvalid, hname]
  exact ⟨hcounted, not_lt.mp fun hcount => hunder ⟨hcounted, hcount⟩⟩

theorem renamed_le (hs : Inv s) (hanswers : ∀ a ∈ s.asks, a.auth = userId → a.script = .answers) (a : ℕ) :
    (renamed userId s).countP (fun r => a ≤ r.ask.time ∧ r.ask.time < a + hour) ≤ 3 := by
  calc (renamed userId s).countP (fun r => a ≤ r.ask.time ∧ r.ask.time < a + hour)
      ≤ s.requests.countP (fun r => (a ≤ r.ask.time ∧ r.ask.time < a + hour) ∧
          r.ask.auth = userId ∧ counted r.ask.body ∧ r.ask.count ≤ 2) := by
        rw [renamed, List.countP_filter]
        refine List.countP_mono_left fun r hr hp => ?_
        simp only [Bool.and_eq_true, decide_eq_true_eq] at hp ⊢
        obtain ⟨htime, hauth, hname, hwritten⟩ := hp
        obtain ⟨hcounted, hcount⟩ := granted_of_renamed (hs.sound r hr) hname hwritten
        exact ⟨htime, hauth, hcounted, hcount⟩
    _ = ((s.asks.filter fun b => b.auth = userId ∧ counted b.body ∧ b.count ≤ 2).map Ask.time).countP
          (fun t => a ≤ t ∧ t < a + hour) := by
        rw [List.countP_map, List.countP_filter, St.asks, List.countP_map]
        simp [Function.comp_def]
    _ ≤ (Window.passed hour 2 .empty (asked userId s.asks)).countP (fun t => a ≤ t ∧ t < a + hour) :=
        (granted_sublist hs.recorded hanswers).countP_le
    _ ≤ 3 := Window.passed_empty_le (by decide) a (hs.sorted.sublist (List.filter_sublist.map Ask.time))

/-- **How often a user can be renamed.** -/
theorem rename_limit (accounts : Accounts) (start : ℕ) (ops : List Op) (userId : ℤ) (h : ∀ o ∈ ops, Answers userId o) :
    let s := Core.run step (init accounts start) ops
    (∀ a, (renamed userId s).countP (fun r => a ≤ r.ask.time ∧ r.ask.time < a + hour) ≤ 3) ∧
      (∀ delay, (∀ r ∈ renamed userId s, ∀ t ∈ r.written, t ≤ r.ask.time + delay) →
        ∀ a, (renamed userId s).countP (fun r => r.written.any fun t => a ≤ t ∧ t + delay < a + hour) ≤ 3) ∧
      ∀ (earlier : List Request) (r : Request), earlier ++ [r] <+: s.requests → r.ask.auth = userId →
        (asked userId (earlier.map Request.ask) ++ [r.ask.time]).countP (fun t => r.ask.time < t + hour) ≤ 2 →
        r.rest ≠ .fail (.rateLimited 3600) := by
  intro s
  have hinv := inv_run accounts start ops
  have hanswers := answers_run accounts start h
  have hlimit := renamed_le hinv hanswers
  refine ⟨hlimit, ?_, ?_⟩
  · intro delay hdelay a
    refine le_trans (List.countP_mono_left fun r hr hany => ?_) (hlimit (a - delay))
    rw [Option.any_eq_true] at hany
    obtain ⟨t, hwritten, ht⟩ := hany
    have hsound := hinv.sound r (List.mem_of_mem_filter hr)
    have hbegan := hsound.later t hwritten
    have hended := hdelay r hr t hwritten
    rw [decide_eq_true_eq] at ht ⊢
    omega
  · intro earlier r hprefix hauth hsparse hlimited
    have hr := hprefix.subset (List.mem_append_right _ (List.mem_singleton_self r))
    have hover : counted r.ask.body = true ∧ 2 < r.ask.count := by
      by_contra hunder
      have hfails := (hinv.sound r hr).unlimited hunder
      rw [hlimited] at hfails
      exact hfails rfl
    have hasks : earlier.map Request.ask ++ [r.ask] <+: s.asks := by
      have := hprefix.map Request.ask
      rwa [List.map_append] at this
    have hcount := hinv.recorded _ _ hasks (hanswers _ (List.mem_map_of_mem hr) hauth)
    have hsorted : (asked userId (earlier.map Request.ask) ++ [r.ask.time]).Pairwise (· ≤ ·) := by
      have htimes := hinv.sorted.sublist (hasks.map Ask.time).sublist
      rw [List.map_append] at htimes
      exact htimes.sublist ((List.filter_sublist.map Ask.time).append (List.Sublist.refl _))
    have hpass := Window.passes_of_sparse (w := .empty) (by decide) (by simp [Window.Counts, Window.empty]) hsorted
      (by simp [Window.Before, Window.empty]) hsparse
    rw [hauth, window] at hcount
    omega

def adasAccount : Accounts := ⟨⟨[newAccount 1 "ada" "ada@a.b" "" ⟨0⟩], by decide⟩, .empty⟩

def toName (name : String) : Op := .updateMe 1 ⟨some name, none, none, none, none⟩ .answers

/-- the second writes after a third is counted, which is of the next hour -/
def threeNames : List Op :=
  [toName "bob", .advance 0, .advance 0, .tick 3599000, toName "eve", .advance 1, .tick 1000, toName "ida", .advance 2,
    .advance 2, .advance 1]

theorem answers_threeNames : ∀ o ∈ threeNames, Answers 1 o := by
  intro o ho body script heq
  subst heq
  simp [threeNames, toName] at ho
  tauto

theorem renamed_threeNames :
    let s := Core.run step (init adasAccount 0) threeNames
    (∀ a, (renamed 1 s).countP (fun r => a ≤ r.ask.time ∧ r.ask.time < a + hour) ≤ 3) ∧
      (∀ delay, (∀ r ∈ renamed 1 s, ∀ t ∈ r.written, t ≤ r.ask.time + delay) →
        ∀ a, (renamed 1 s).countP (fun r => r.written.any fun t => a ≤ t ∧ t + delay < a + hour) ≤ 3) ∧
      ∀ (earlier : List Request) (r : Request), earlier ++ [r] <+: s.requests → r.ask.auth = 1 →
        (asked 1 (earlier.map Request.ask) ++ [r.ask.time]).countP (fun t => r.ask.time < t + hour) ≤ 2 →
        r.rest ≠ .fail (.rateLimited 3600) :=
  rename_limit adasAccount 0 threeNames 1 answers_threeNames

end Lumiere.Routes.UsernameChanges
