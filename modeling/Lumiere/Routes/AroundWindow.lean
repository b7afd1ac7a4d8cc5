/-
The window that `get_messages` returns for `around` (`lumiere-server/src/routes/messages.rs`). It is glued from an
`after` page, the message itself and a `before` page; an `after` page starts with its oldest row.

- `queryMessages_complete`: a page over rows that are not deleted, when those it is for are complete.
- `run_around`: what the handler returns for complete rows.
- `getMessages_around_iff`: the window is as it should be exactly if its rows are complete and at most one of them is
  newer than the message.
- `newer_ascending`: two newer messages.
-/
import Lumiere.Routes.MessagePages
import Lumiere.Routes.RefusedEdits

namespace Lumiere.Routes

open Lumiere.Core Lumiere.Core.Prog Lumiere.Models Lumiere.Db

/-! ## The handler -/

structure GetMessagesQuery where
  limit : Option ℤ
  before : Option ℤ
  after : Option ℤ
  around : Option ℤ
deriving DecidableEq, Repr

/-- reads of the message table, which may fail -/
def scylla {α : Type} (f : Chat → Except AppError α) : Route α := do
  let r ← select fun w => f w.chat
  match r with
  | .ok a => pure a
  | .error e => fail e

/-- `now` is the clock that `current_bucket` reads -/
def getMessages (auth channelId : ℤ) (query : GetMessagesQuery) (now : DateTime) : Route (List MsgRow) := do
  let _ ← onPg (checkChannelPermission channelId auth .readMessageHistory)
  let limit := (max 1 (min (query.limit.getD 50) 100)).toNat
  match query.around with
  | some aroundId => do
    let half := limit / 2
    let before ← scylla fun c => queryMessages c.messages now channelId (some aroundId) none half
    let after ← scylla fun c => queryMessages c.messages now channelId none (some aroundId) half
    let targetRows ← scylla fun c =>
      .ok (extractMsgRows channelId (c.message? (messageKey channelId aroundId)).toList)
    return after ++ targetRows ++ before
  | none => scylla fun c => queryMessages c.messages now channelId query.before query.after limit

variable {w : World} {s : Messages} {now : DateTime} {auth channelId id : ℤ} {half : ℕ} {m : Mode}

theorem run_scylla {α : Type} {f : Chat → Except AppError α} {a : α} (h : f w.chat = .ok a) :
    (scylla f).run Effect.exec w = (.ok a, w) := by
  unfold scylla
  rw [run_bind_of_ok (run_select _), h]
  rfl

/-! ## Pages -/

/-- the rows of the scanned buckets beyond the cursor, in the order of the scan -/
def candidates (s : Messages) (now : DateTime) (channelId : ℤ) (m : Mode) : List MessageRow :=
  (m.buckets now).flatMap (m.rows s channelId)

/-- no row of the channel is deleted -/
def Undeleted (s : Messages) (channelId : ℤ) : Prop := ∀ b, ∀ r ∈ s.partition channelId b, live r = true

theorem Undeleted.candidates (h : Undeleted s channelId) : ∀ r ∈ candidates s now channelId m, live r = true := by
  intro r hr
  obtain ⟨b, -, hr⟩ := List.mem_flatMap.1 hr
  exact h b r (Mode.mem_rows.1 hr).1

theorem listing_candidates (hplaced : s.Placed channelId) (hord : InOrder s now channelId m)
    (hlive : Undeleted s channelId) : Listing s now channelId m (candidates s now channelId m) := by
  have hself : (candidates s now channelId m).filter live = candidates s now channelId m :=
    List.filter_eq_self.2 hlive.candidates
  rw [← hself]
  exact listing_of_inOrder hplaced hord

theorem queryMessages_complete (before after : Option ℤ) (hlive : Undeleted s channelId) (hhalf : half < 2 ^ 31)
    (h : ∀ r ∈ (candidates s now channelId (Mode.ofArgs before after)).take half, (shown channelId r).isSome = true) :
    ∃ page, queryMessages s now channelId before after half = .ok page ∧
      page.map some = ((candidates s now channelId (Mode.ofArgs before after)).take half).map (shown channelId) := by
  have hall : ∀ r ∈ candidates s now channelId (Mode.ofArgs before after), live r = true := hlive.candidates
  have hself := List.filter_eq_self.2 hall
  unfold candidates at hall h hself ⊢
  rw [List.flatMap_def] at hall h hself ⊢
  have hcrisp : Crisp limitFor (shown channelId) live half
      (((Mode.ofArgs before after).buckets now).map ((Mode.ofArgs before after).rows s channelId)) :=
    crisp_of_taken (fun k hk hle => limitFor_eq hk (by omega)) hall h
  obtain ⟨page, hpage, hrows⟩ := collect_of_crisp shown_live limitFor_le hcrisp
  rw [hself] at hrows
  exact ⟨page, queryMessages_eq_ok.2 hpage, hrows⟩

/-! ## The window -/

/-- the row of the message -/
def target (w : World) (channelId id : ℤ) : List MessageRow := (w.chat.message? (messageKey channelId id)).toList

/-- the nearest rows on both sides of the message, and its own -/
def windowRows (newer target older : List MessageRow) (half : ℕ) : List MessageRow :=
  (newer.take half).reverse ++ target ++ older.take half

/-- the handler returns the window, newest row first -/
def AroundWindow (w : World) (auth channelId id : ℤ) (query : GetMessagesQuery) (now : DateTime) (half : ℕ) : Prop :=
  ∃ newer older, Listing w.chat.messages now channelId (.after id) newer ∧
    Listing w.chat.messages now channelId (.before id) older ∧
    ∃ page, (getMessages auth channelId query now).run Effect.exec w = (.ok page, w) ∧
      page.map some = (windowRows newer (target w channelId id) older half).map (shown channelId) ∧
      page.Pairwise fun x y => y.id < x.id

/-- the page has the rows that were asked for, as they are shown -/
theorem ids_of_shown {page : List MsgRow} {rows : List MessageRow} (h : page.map some = rows.map (shown channelId)) :
    page.map MsgRow.id = rows.map MessageRow.messageId := by
  induction page generalizing rows with
  | nil =>
    rw [List.map_nil] at h
    rw [List.map_eq_nil_iff.1 h.symm]
    rfl
  | cons y page ih =>
    cases rows with
    | nil => cases h
    | cons r rows =>
      rw [List.map_cons, List.map_cons, List.cons.injEq] at h
      rw [List.map_cons, List.map_cons, ih h.2, shown_id r y h.1.symm]

theorem complete_of_shown {page : List MsgRow} {rows : List MessageRow}
    (h : page.map some = rows.map (shown channelId)) : ∀ r ∈ rows, (shown channelId r).isSome = true := by
  intro r hr
  have hmem : shown channelId r ∈ page.map some := h ▸ List.mem_map_of_mem hr
  obtain ⟨y, -, hy⟩ := List.mem_map.1 hmem
  rw [← hy]
  rfl

theorem pairwise_of_shown {page : List MsgRow} {rows : List MessageRow} (h : page.map some = rows.map (shown channelId))
    (hrows : rows.Pairwise fun x y => y.messageId < x.messageId) : page.Pairwise fun x y => y.id < x.id := by
  have hids : (rows.map MessageRow.messageId).Pairwise fun x y => y < x := List.pairwise_map.2 hrows
  rw [← ids_of_shown h] at hids
  exact List.pairwise_map.1 hids

/-- what the handler returns for complete rows: the newer ones oldest first -/
theorem run_around {limit : ℤ} (before after : Option ℤ) (hlive : Undeleted w.chat.messages channelId)
    (haccess : ∃ serverId, MayAccess w.pg channelId auth .readMessageHistory serverId) (hlimit : 1 ≤ limit ∧ limit ≤ 100)
    (h : ∀ r ∈ windowRows (candidates w.chat.messages now channelId (.after id)) (target w channelId id)
      (candidates w.chat.messages now channelId (.before id)) (limit.toNat / 2), (shown channelId r).isSome = true) :
    ∃ page, (getMessages auth channelId ⟨some limit, before, after, some id⟩ now).run Effect.exec w = (.ok page, w) ∧
      page.map some = ((candidates w.chat.messages now channelId (.after id)).take (limit.toNat / 2) ++
        target w channelId id ++
          (candidates w.chat.messages now channelId (.before id)).take (limit.toNat / 2)).map (shown channelId) := by
  obtain ⟨serverId, haccess⟩ := haccess
  have hcheck := (run_onPg_ok readOnly_checkChannelPermission).2 ⟨checkChannelPermission_iff.2 haccess, rfl⟩
  have hclamp : (max 1 (min ((some limit).getD 50) 100)).toNat = limit.toNat := by
    rw [Option.getD_some]
    omega
  have hhalf : limit.toNat / 2 < 2 ^ 31 := by omega
  simp only [windowRows, List.mem_append, List.mem_reverse] at h
  obtain ⟨newer, hnewer, hnewerRows⟩ := queryMessages_complete none (some id) hlive hhalf fun r hr =>
    h r (.inl (.inl hr))
  obtain ⟨older, holder, holderRows⟩ := queryMessages_complete (some id) none hlive hhalf fun r hr => h r (.inr hr)
  have htarget := map_some_filterMap fun r hr => h r (.inl (.inr hr))
  refine ⟨newer ++ extractMsgRows channelId (target w channelId id) ++ older, ?_, ?_⟩
  · have hbefore := @run_scylla w _ (fun c => queryMessages c.messages now channelId (some id) none (limit.toNat / 2)) _
      holder
    have hafter := @run_scylla w _ (fun c => queryMessages c.messages now channelId none (some id) (limit.toNat / 2)) _
      hnewer
    unfold getMessages
    rw [run_bind_of_ok hcheck]
    dsimp only
    rw [hclamp, run_bind_of_ok hbefore, run_bind_of_ok hafter]
    rfl
  · rw [List.map_append, List.map_append, hnewerRows, holderRows, extractMsgRows, htarget, List.map_append,
      List.map_append]
    rfl

/-! ## When it is the window -/

theorem reverse_of_single {α : Type} {l : List α} (h : l.length ≤ 1) : l.reverse = l := by
  rcases l with _ | ⟨x, _ | ⟨y, l⟩⟩
  · rfl
  · rfl
  · simp at h

/-- an ascending list that is descending too has at most one element -/
theorem reverse_eq_iff {l : List ℤ} (h : l.Pairwise (· < ·)) : l.reverse = l ↔ l.length ≤ 1 := by
  constructor
  · intro hself
    have hreverse : l.Pairwise fun x y => y < x := by
      rw [← hself]
      exact List.pairwise_reverse.2 h
    rcases l with _ | ⟨x, _ | ⟨y, l⟩⟩
    · exact Nat.zero_le 1
    · exact Nat.le_refl 1
    · have hlt := (List.pairwise_cons.1 h).1 y List.mem_cons_self
      have hgt := (List.pairwise_cons.1 hreverse).1 y List.mem_cons_self
      omega
  · exact reverse_of_single

theorem id_target {r : MessageRow} (hr : r ∈ target w channelId id) : r.messageId = id := by
  rw [target, Option.mem_toList] at hr
  have hid := List.find?_some hr
  exact of_decide_eq_true hid

theorem windowRows_pairwise {newer older : List MessageRow}
    (hnewer : Listing w.chat.messages now channelId (.after id) newer)
    (holder : Listing w.chat.messages now channelId (.before id) older) (half : ℕ) :
    (windowRows newer (target w channelId id) older half).Pairwise fun x y => y.messageId < x.messageId := by
  have hafter : ∀ r ∈ (newer.take half).reverse, id < r.messageId := fun r hr =>
    ((hnewer.mem r).1 (List.mem_of_mem_take (List.mem_reverse.1 hr))).2.1
  have hbefore : ∀ r ∈ older.take half, r.messageId < id := fun r hr =>
    ((holder.mem r).1 (List.mem_of_mem_take hr)).2.1
  have htarget : (target w channelId id).Pairwise fun x y => y.messageId < x.messageId := by
    unfold target
    cases w.chat.message? (messageKey channelId id) with
    | none => exact List.Pairwise.nil
    | some r => exact List.pairwise_singleton _ _
  unfold windowRows
  refine List.pairwise_append.2 ⟨List.pairwise_append.2 ⟨?_, htarget, ?_⟩, ?_, ?_⟩
  · exact List.pairwise_reverse.2 (hnewer.ordered.sublist (List.take_sublist half newer))
  · intro x hx y hy
    rw [id_target hy]
    exact hafter x hx
  · exact holder.ordered.sublist (List.take_sublist half older)
  · intro x hx y hy
    rcases List.mem_append.1 hx with hx | hx
    · exact (hbefore y hy).trans (hafter x hx)
    · rw [id_target hx]
      exact hbefore y hy

/-- the rows of the window are complete, and there are less than two newer ones in it -/
structure WindowStands (w : World) (channelId id limit : ℤ) (now : DateTime) : Prop where
  single : limit < 4 ∨ (candidates w.chat.messages now channelId (.after id)).length ≤ 1
  complete : ∀ r ∈ windowRows (candidates w.chat.messages now channelId (.after id)) (target w channelId id)
    (candidates w.chat.messages now channelId (.before id)) (limit.toNat / 2), (shown channelId r).isSome = true

/-- **The window is newest first exactly if at most one row of it is newer than the message.** -/
theorem getMessages_around_iff (w : World) (auth channelId id limit : ℤ) (before after : Option ℤ) (now : DateTime)
    (haccess : ∃ serverId, MayAccess w.pg channelId auth .readMessageHistory serverId)
    (hplaced : w.chat.messages.Placed channelId) (hids : SignedIds w.chat.messages channelId)
    (hid : -2 ^ 63 ≤ id ∧ id < 2 ^ 63) (hsign : SameSign w.chat.messages channelId id)
    (hlive : Undeleted w.chat.messages channelId) (hlimit : 1 ≤ limit ∧ limit ≤ 100) :
    AroundWindow w auth channelId id ⟨some limit, before, after, some id⟩ now (limit.toNat / 2) ↔
      WindowStands w channelId id limit now := by
  have hlisting : ∀ m, m = .after id ∨ m = .before id →
      Listing w.chat.messages now channelId m (candidates w.chat.messages now channelId m) := fun m hm =>
    listing_candidates hplaced (inOrder_around hplaced hids hid hsign hm) hlive
  have hnewer := hlisting (.after id) (.inl rfl)
  have holder := hlisting (.before id) (.inr rfl)
  have hascending : (((candidates w.chat.messages now channelId (.after id)).take (limit.toNat / 2)).map
      MessageRow.messageId).Pairwise (· < ·) :=
    List.pairwise_map.2 (hnewer.ordered.sublist (List.take_sublist _ _))
  have hsingle : (((candidates w.chat.messages now channelId (.after id)).take (limit.toNat / 2)).map
      MessageRow.messageId).length ≤ 1 ↔
        limit < 4 ∨ (candidates w.chat.messages now channelId (.after id)).length ≤ 1 := by
    rw [List.length_map, List.length_take]
    omega
  constructor
  · intro ⟨newer, older, hnewer', holder', page, hrun, hrows, _⟩
    rw [hnewer'.unique hnewer, holder'.unique holder] at hrows
    have hcomplete := complete_of_shown hrows
    obtain ⟨page', hrun', hrows'⟩ := run_around before after hlive haccess hlimit hcomplete
    rw [hrun] at hrun'
    cases hrun'
    have hequal := (ids_of_shown hrows).symm.trans (ids_of_shown hrows')
    refine ⟨hsingle.1 ((reverse_eq_iff hascending).1 ?_), hcomplete⟩
    simp only [windowRows, List.append_assoc, List.map_append, List.map_reverse] at hequal
    exact (List.append_inj hequal (by simp)).1
  · intro h
    obtain ⟨page, hrun, hrows⟩ := run_around before after hlive haccess hlimit h.complete
    have hlength := hsingle.2 h.single
    have hreverse : ((candidates w.chat.messages now channelId (.after id)).take (limit.toNat / 2)).reverse =
        (candidates w.chat.messages now channelId (.after id)).take (limit.toNat / 2) := by
      rw [List.length_map] at hlength
      exact reverse_of_single hlength
    rw [← hreverse] at hrows
    have hordered := pairwise_of_shown hrows (windowRows_pairwise hnewer holder (limit.toNat / 2))
    exact ⟨_, _, hnewer, holder, page, hrun, hrows, hordered⟩

/-! ## Three messages -/

/-- three messages of the first bucket of channel 101 -/
def threeMessages : Messages where
  partition c b := if c = 101 ∧ b = 0 then [textRow 12582912 false, textRow 8388608 false, textRow 4194304 false] else []
  sorted c b := by split_ifs <;> simp [textRow]

def talked : World := { joined with chat := { joined.chat with messages := threeMessages } }

theorem threeMessages_rows {b : ℤ} {r : MessageRow} (hr : r ∈ threeMessages.partition 101 b) :
    b = bucketOfId r.messageId ∧ live r = true ∧ -2 ^ 63 ≤ r.messageId ∧ r.messageId < 2 ^ 63 := by
  simp only [threeMessages] at hr
  split_ifs at hr with h
  · obtain ⟨-, rfl⟩ := h
    revert r
    decide
  · cases hr

/-- **Around the oldest message, the newest one comes after the second.** -/
theorem newer_ascending :
    (((getMessages 2 101 ⟨some 4, none, none, some 4194304⟩ february).run Effect.exec talked).1.toOption.map
      (List.map MsgRow.id) = some [8388608, 12582912, 4194304]) ∧
    ¬ AroundWindow talked 2 101 4194304 ⟨some 4, none, none, some 4194304⟩ february 2 := by
  have hids : ((getMessages 2 101 ⟨some 4, none, none, some 4194304⟩ february).run Effect.exec talked).1.toOption.map
      (List.map MsgRow.id) = some [8388608, 12582912, 4194304] := by
    decide
  refine ⟨hids, ?_⟩
  intro ⟨newer, older, _, _, page, hrun, _, hordered⟩
  rw [hrun] at hids
  have hpage : page.map MsgRow.id = [8388608, 12582912, 4194304] := Option.some.inj hids
  have hdescending : (page.map MsgRow.id).Pairwise fun x y => y < x := List.pairwise_map.2 hordered
  rw [hpage] at hdescending
  revert hdescending
  decide

theorem getMessages_around_iff_talked :
    AroundWindow talked 2 101 8388608 ⟨some 4, none, none, some 8388608⟩ february 2 ↔
      WindowStands talked 101 8388608 4 february :=
  have hplaced : talked.chat.messages.Placed 101 := fun _ _ hr => (threeMessages_rows hr).1
  have hids : SignedIds talked.chat.messages 101 := fun _ _ hr => (threeMessages_rows hr).2.2
  getMessages_around_iff talked 2 101 8388608 4 none none february ⟨some 100, checkChannelPermission_iff.1 rfl⟩ hplaced
    hids (by decide) (sameSign_of_bucket_ne hplaced hids (by decide) (by decide))
    (fun _ _ hr => (threeMessages_rows hr).2.1) (by decide)

end Lumiere.Routes
