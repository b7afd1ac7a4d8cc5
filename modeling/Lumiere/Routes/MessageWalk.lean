/-
Reading a whole channel backwards: `query_messages` without a cursor, and then before the last row of each page.

- `backward_walk`: in a channel without deleted rows whose consecutive rows are at most 20 buckets apart, the walk ends
  and its pages hold every row once, newest first, for every page size that fits an `i32`.
- `page_size_cast`: a page size of `2^31` is cast to a negative `LIMIT`, which the database refuses. The handlers pass
  at most 100.
- `walk_loses`: so it is with a row that lacks columns, as an `UPDATE` of a message that is not there leaves one.
-/
import Lumiere.Core.Walk
import Lumiere.Routes.MessagePages

namespace Lumiere.Routes

open Lumiere.Core Lumiere.Models Lumiere.Db

/-- pages of `limit` from the newest row backwards; `fuel` bounds the number of requests -/
def backwardWalk (s : Messages) (now : DateTime) (channelId : ℤ) (limit fuel : ℕ) :
    Except AppError (Option (List (List MsgRow))) :=
  walk (fun before => queryMessages s now channelId before none limit) MsgRow.id fuel none

variable {s : Messages} {now : DateTime} {channelId : ℤ}

/-- the row is one of the channel -/
def InChannel (s : Messages) (channelId : ℤ) (r : MessageRow) : Prop := ∃ b, r ∈ s.partition channelId b

/-- a channel of complete, undeleted rows without long gaps, whose newest row is in reach of the clock -/
structure Walkable (s : Messages) (now : DateTime) (channelId : ℤ) : Prop where
  placed : s.Placed channelId
  shown : AllShown s channelId
  ids : NonnegIds s channelId
  gap : ∀ {x y}, InChannel s channelId x → InChannel s channelId y → y.messageId < x.messageId →
    (∀ z, InChannel s channelId z → ¬ (y.messageId < z.messageId ∧ z.messageId < x.messageId)) →
    bucketOfId x.messageId - bucketOfId y.messageId ≤ 20
  newest : ∀ {x}, InChannel s channelId x → (∀ z, InChannel s channelId z → z.messageId ≤ x.messageId) →
    bucketFromDatetime now - 20 ≤ bucketOfId x.messageId ∧ bucketOfId x.messageId ≤ bucketFromDatetime now

/-! ## The rows of a channel -/

/-- every row of a channel with non-negative ids, newest first -/
def channelRows (s : Messages) (channelId : ℤ) : List MessageRow :=
  (inclusive 0 2545).reverse.flatMap (s.partition channelId)

theorem mem_channelRows (hplaced : s.Placed channelId) (hids : NonnegIds s channelId) {r : MessageRow} :
    r ∈ channelRows s channelId ↔ InChannel s channelId r := by
  simp only [channelRows, List.mem_flatMap, List.mem_reverse, mem_inclusive, InChannel]
  constructor
  · rintro ⟨b, -, hr⟩
    exact ⟨b, hr⟩
  · rintro ⟨b, hr⟩
    obtain ⟨h0, hlt⟩ := hids b r hr
    have hb := hplaced b r hr
    rw [bucketOfId_eq h0 hlt] at hb
    exact ⟨b, by omega, hr⟩

theorem channelRows_pairwise (hplaced : s.Placed channelId) (hids : NonnegIds s channelId) :
    (channelRows s channelId).Pairwise fun x y => y.messageId < x.messageId :=
  List.pairwise_flatMap.2 ⟨fun b _ => s.sorted channelId b,
    (List.pairwise_reverse.2 (inclusive_pairwise 0 2545)).imp fun hb _ hx _ hy =>
      lt_of_bucket_lt hplaced hids hy hx hb⟩

/-- a list cut where a property that only gets lost along it is lost -/
theorem eq_filter_append {α : Type} {p : α → Bool} {l : List α} (h : l.Pairwise fun x y => p y = true → p x = true) :
    l = l.filter p ++ l.filter fun x => !p x := by
  induction l with
  | nil => rfl
  | cons x l ih =>
    obtain ⟨hx, hl⟩ := List.pairwise_cons.1 h
    by_cases hp : p x = true
    · rw [List.filter_cons_of_pos hp, List.filter_cons_of_neg (by simp [hp]), List.cons_append, ← ih hl]
    · have hnil : l.filter p = [] := List.filter_eq_nil_iff.2 fun y hy hpy => hp (hx y hy hpy)
      have hall : (l.filter fun x => !p x) = l := List.filter_eq_self.2 fun y hy => by
        simpa using List.filter_eq_nil_iff.1 hnil y hy
      rw [List.filter_cons_of_neg hp, List.filter_cons_of_pos (by simp [hp]), hnil, hall, List.nil_append]

/-! ## One page -/

/-- without deleted rows a page is the first `limit` rows of its listing -/
theorem page_of_listing (h : Walkable s now channelId) {before : Option ℤ} {limit : ℕ} (hlimit : limit < 2 ^ 31)
    {rows : List MessageRow} (hrows : Listing s now channelId (Mode.ofArgs before none) rows) :
    ∃ page, queryMessages s now channelId before none limit = .ok page ∧
      page.map some = (rows.take limit).map (shown channelId) := by
  have hcrisp : CrispScan s now channelId (Mode.ofArgs before none) limit := crispScan_of_undeleted h.shown hlimit
  obtain ⟨page, hpage, heq⟩ := collect_of_crisp shown_live limitFor_le hcrisp
  refine ⟨page, queryMessages_eq_ok.2 hpage, ?_⟩
  rw [heq, ← List.flatMap_def, (listing_of_inOrder h.placed (inOrder_of_nonneg h.placed h.ids)).unique hrows]

namespace Walkable

variable (h : Walkable s now channelId)
include h

theorem live_of_mem {b : ℤ} {r : MessageRow} (hr : r ∈ s.partition channelId b) : live r = true := by
  obtain ⟨y, hy⟩ := Option.isSome_iff_exists.1 (h.shown b r hr)
  exact shown_live r y hy

theorem bucket_mono {x y : MessageRow} (hx : InChannel s channelId x) (hy : InChannel s channelId y)
    (hlt : y.messageId ≤ x.messageId) : bucketOfId y.messageId ≤ bucketOfId x.messageId := by
  obtain ⟨b, hx⟩ := hx
  obtain ⟨b', hy⟩ := hy
  exact bucketOfId_mono (h.ids b' y hy).1 hlt (h.ids b x hx).2

theorem inChannel_of_mem {r : MessageRow} (hr : r ∈ channelRows s channelId) : InChannel s channelId r :=
  (mem_channelRows h.placed h.ids).1 hr

theorem le_head {x : MessageRow} {l : List MessageRow} (hl : channelRows s channelId = x :: l) {z : MessageRow}
    (hz : InChannel s channelId z) : z.messageId ≤ x.messageId := by
  have hsorted := channelRows_pairwise h.placed h.ids
  rw [← mem_channelRows h.placed h.ids, hl] at hz
  rw [hl, List.pairwise_cons] at hsorted
  rcases List.mem_cons.1 hz with rfl | hz
  · exact le_rfl
  · exact (hsorted.1 z hz).le

theorem head_bucket {x : MessageRow} {l : List MessageRow} (hl : channelRows s channelId = x :: l) :
    bucketFromDatetime now - 20 ≤ bucketOfId x.messageId ∧ bucketOfId x.messageId ≤ bucketFromDatetime now :=
  h.newest (h.inChannel_of_mem (by simp [hl])) fun _ hz => h.le_head hl hz

/-- the request without a cursor -/
theorem listing_latest : Listing s now channelId .latest
    ((channelRows s channelId).filter fun r => bucketFromDatetime now - 20 ≤ bucketOfId r.messageId) := by
  have hsorted := channelRows_pairwise h.placed h.ids
  refine ⟨hsorted.filter _, fun r => ?_⟩
  rw [List.mem_filter, mem_channelRows h.placed h.ids, decide_eq_true_iff]
  constructor
  · rintro ⟨⟨b, hr⟩, hlo⟩
    have hb := h.placed b r hr
    refine ⟨h.live_of_mem hr, trivial, b, ⟨hb ▸ hlo, ?_⟩, hr⟩
    -- no bucket is above that of the newest row
    rcases hl : channelRows s channelId with _ | ⟨x, l⟩
    · have := (mem_channelRows h.placed h.ids).2 ⟨b, hr⟩
      simp [hl] at this
    · have hx : InChannel s channelId x := h.inChannel_of_mem (by simp [hl])
      have := h.bucket_mono hx ⟨b, hr⟩ (h.le_head hl ⟨b, hr⟩)
      have := (h.head_bucket hl).2
      omega
  · rintro ⟨-, -, b, ⟨hlo, -⟩, hr⟩
    exact ⟨⟨b, hr⟩, h.placed b r hr ▸ hlo⟩

/-- what follows a row is what is older than it -/
theorem mem_suffix {pre suf : List MessageRow} {x : MessageRow} (hl : channelRows s channelId = pre ++ x :: suf)
    {r : MessageRow} : r ∈ suf ↔ InChannel s channelId r ∧ r.messageId < x.messageId := by
  have hsorted := channelRows_pairwise h.placed h.ids
  rw [hl, List.pairwise_append, List.pairwise_cons] at hsorted
  obtain ⟨-, ⟨hsuf, -⟩, hpre⟩ := hsorted
  rw [← mem_channelRows h.placed h.ids, hl, List.mem_append, List.mem_cons]
  constructor
  · intro hr
    exact ⟨.inr (.inr hr), hsuf r hr⟩
  · rintro ⟨hr | rfl | hr, hlt⟩
    · have := hpre r hr x List.mem_cons_self
      omega
    · omega
    · exact hr

/-- the request before the row `x` -/
theorem listing_before {pre suf : List MessageRow} {x : MessageRow} (hl : channelRows s channelId = pre ++ x :: suf) :
    Listing s now channelId (.before x.messageId)
      (suf.filter fun r => bucketOfId x.messageId - 20 ≤ bucketOfId r.messageId) := by
  have hsorted := channelRows_pairwise h.placed h.ids
  rw [hl, List.pairwise_append, List.pairwise_cons] at hsorted
  refine ⟨hsorted.2.1.2.filter _, fun r => ?_⟩
  rw [List.mem_filter, h.mem_suffix hl, decide_eq_true_iff]
  have hx : InChannel s channelId x := h.inChannel_of_mem (by simp [hl])
  constructor
  · rintro ⟨⟨⟨b, hr⟩, hlt⟩, hlo⟩
    have hb := h.placed b r hr
    have hle := h.bucket_mono hx ⟨b, hr⟩ hlt.le
    exact ⟨h.live_of_mem hr, hlt, b, ⟨le_of_le_of_eq hlo hb.symm, le_of_eq_of_le hb hle⟩, hr⟩
  · rintro ⟨-, hlt, b, ⟨hlo, -⟩, hr⟩
    exact ⟨⟨⟨b, hr⟩, hlt⟩, le_of_le_of_eq hlo (h.placed b r hr)⟩

/-- the row after `x` is in reach of the request before `x` -/
theorem next_bucket {pre suf : List MessageRow} {x y : MessageRow}
    (hl : channelRows s channelId = pre ++ x :: y :: suf) :
    bucketOfId x.messageId - 20 ≤ bucketOfId y.messageId := by
  have hx : InChannel s channelId x := h.inChannel_of_mem (by simp [hl])
  obtain ⟨hy, hyx⟩ := (h.mem_suffix hl).1 List.mem_cons_self
  have hgap := h.gap hx hy hyx fun z hz hbetween => by
    have hsorted := channelRows_pairwise h.placed h.ids
    rw [hl, List.pairwise_append, List.pairwise_cons, List.pairwise_cons] at hsorted
    rcases List.mem_cons.1 ((h.mem_suffix hl).2 ⟨hz, hbetween.2⟩) with hzy | hzs
    · exact absurd hbetween.1 (hzy ▸ lt_irrefl _)
    · exact absurd hbetween.1 (hsorted.2.1.2.1 z hzs).not_gt
  omega

/-- what is older than a row is ordered by bucket, so a lower bound on buckets cuts it once -/
theorem cut (lo : ℤ) {pre suf : List MessageRow} (hl : channelRows s channelId = pre ++ suf) :
    ∃ rest, suf = (suf.filter fun r => lo ≤ bucketOfId r.messageId) ++ rest := by
  have hsorted := channelRows_pairwise h.placed h.ids
  rw [hl, List.pairwise_append] at hsorted
  refine ⟨_, eq_filter_append (hsorted.2.1.imp_of_mem fun {x y} hx hy hlt => ?_)⟩
  have hx : InChannel s channelId x := h.inChannel_of_mem (by simp [hl, hx])
  have hy : InChannel s channelId y := h.inChannel_of_mem (by simp [hl, hy])
  have := h.bucket_mono hx hy hlt.le
  simp only [decide_eq_true_iff]
  omega

/-- every backward request returns a prefix of what is left, empty only at the end -/
theorem listing_after {pre suf : List MessageRow} (hl : channelRows s channelId = pre ++ suf) :
    ∃ rows rest, Listing s now channelId (Mode.ofArgs (pre.getLast?.map MessageRow.messageId) none) rows ∧
      suf = rows ++ rest ∧ (rows = [] → suf = []) := by
  rcases pre.eq_nil_or_concat with rfl | ⟨pre, x, rfl⟩
  · obtain ⟨rest, hrest⟩ := h.cut (bucketFromDatetime now - 20) hl
    rw [List.nil_append] at hl
    refine ⟨_, rest, hl ▸ h.listing_latest, hrest, fun hnil => ?_⟩
    rcases suf with _ | ⟨x, l⟩
    · rfl
    · exact absurd (decide_eq_true (h.head_bucket hl).1) (List.filter_eq_nil_iff.1 hnil x List.mem_cons_self)
  · rw [List.concat_eq_append, List.append_assoc] at hl
    obtain ⟨rest, hrest⟩ := h.cut (bucketOfId x.messageId - 20) (hl.trans (List.append_assoc pre [x] suf).symm)
    have hmode : Mode.ofArgs ((pre.concat x).getLast?.map MessageRow.messageId) none = .before x.messageId := by
      simp [Mode.ofArgs]
    refine ⟨_, rest, hmode ▸ h.listing_before hl, hrest, fun hnil => ?_⟩
    rcases suf with _ | ⟨y, l⟩
    · rfl
    · exact absurd (decide_eq_true (h.next_bucket hl)) (List.filter_eq_nil_iff.1 hnil y List.mem_cons_self)

end Walkable

/-! ## The walk -/

/-- the rows of the channel as they are shown -/
theorem exists_shown (h : Walkable s now channelId) :
    ∃ l : List MsgRow, l.map some = (channelRows s channelId).map (shown channelId) :=
  ⟨_, map_some_filterMap fun r hr => by
    obtain ⟨b, hb⟩ := h.inChannel_of_mem hr
    exact h.shown b r hb⟩

theorem ids_of_map {l : List MsgRow} {rows : List MessageRow} (h : l.map some = rows.map (shown channelId)) :
    l.map MsgRow.id = rows.map MessageRow.messageId := by
  induction rows generalizing l with
  | nil => rw [List.map_eq_nil_iff.1 h]; rfl
  | cons r rows ih =>
    rcases l with _ | ⟨m, l⟩
    · cases h
    · obtain ⟨hm, hl⟩ := List.cons.inj h
      rw [List.map_cons, List.map_cons, shown_id r m hm.symm, ih hl]

theorem getLast?_of_map {l : List MsgRow} {rows : List MessageRow} (h : l.map some = rows.map (shown channelId)) :
    l.getLast?.map MsgRow.id = rows.getLast?.map MessageRow.messageId := by
  rw [← List.getLast?_map, ids_of_map h, List.getLast?_map]

theorem pageOf (h : Walkable s now channelId) {limit : ℕ} (h1 : 1 ≤ limit) (hlimit : limit < 2 ^ 31) {l : List MsgRow}
    (hl : l.map some = (channelRows s channelId).map (shown channelId)) (pre suf : List MsgRow) (hsplit : l = pre ++ suf) :
    PageOf (fun before => queryMessages s now channelId before none limit) MsgRow.id limit pre suf := by
  rw [hsplit, List.map_append, eq_comm, List.map_eq_append_iff] at hl
  obtain ⟨preRows, sufRows, hrows, hpre, hsuf⟩ := hl
  obtain ⟨rows, rest, hlist, rfl, hend⟩ := h.listing_after hrows
  rw [← getLast?_of_map hpre.symm] at hlist
  obtain ⟨page, hpage, heq⟩ := page_of_listing h hlimit hlist
  have hlen := congrArg List.length heq
  rw [List.length_map, List.length_map, List.length_take] at hlen
  have hsplit' : suf.map some = page.map some ++ (rows.drop limit ++ rest).map (shown channelId) := by
    rw [heq, ← hsuf, ← List.map_append, ← List.append_assoc, List.take_append_drop]
  obtain ⟨a, b, rfl, ha, -⟩ := List.map_eq_append_iff.1 hsplit'
  obtain rfl : a = page := List.map_injective_iff.2 (Option.some_injective _) ha
  refine ⟨a, b, hpage, rfl, by omega, ?_⟩
  rintro rfl
  have hnil : rows = [] := List.length_eq_zero_iff.1 (by rw [List.length_nil] at hlen; omega)
  rw [hend hnil, List.map_nil] at hsuf
  exact List.map_eq_nil_iff.1 hsuf.symm

/-- the walk ends, and its pages hold every row of the channel once, newest first -/
def Lossless (s : Messages) (now : DateTime) (channelId : ℤ) (limit : ℕ) : Prop :=
  ∃ pages, (∃ n, ∀ fuel, n ≤ fuel → backwardWalk s now channelId limit fuel = .ok (some pages)) ∧
    (∀ p ∈ pages, p.length ≤ limit) ∧
    pages.flatten.Pairwise (fun x y => y.id < x.id) ∧
    ∀ m, m ∈ pages.flatten ↔ ∃ b r, r ∈ s.partition channelId b ∧ shown channelId r = some m

/-- **Backward traversal is lossless.** -/
theorem backward_walk (s : Messages) (now : DateTime) (channelId : ℤ) (limit : ℕ) (h : Walkable s now channelId)
    (h1 : 1 ≤ limit) (hlimit : limit ≤ 2147483647) : Lossless s now channelId limit := by
  obtain ⟨l, hl⟩ := exists_shown h
  obtain ⟨pages, hwalk, hflat, hlen⟩ := walk_complete (pageOf h h1 (by omega) hl)
  refine ⟨pages, ⟨l.length + 1, fun fuel hf => hwalk fuel hf⟩, hlen, ?_, fun m => ?_⟩
  · -- the shown rows are in the order of the stored ones
    rw [hflat, ← List.pairwise_map (f := MsgRow.id) (R := fun a b => b < a), ids_of_map hl, List.pairwise_map]
    exact channelRows_pairwise h.placed h.ids
  · rw [hflat]
    have hmem : m ∈ l ↔ some m ∈ (channelRows s channelId).map (shown channelId) := by
      rw [← hl]
      simp
    rw [hmem, List.mem_map]
    constructor
    · rintro ⟨r, hr, hs⟩
      obtain ⟨b, hb⟩ := h.inChannel_of_mem hr
      exact ⟨b, r, hb, hs⟩
    · rintro ⟨b, r, hr, hs⟩
      exact ⟨r, (mem_channelRows h.placed h.ids).2 ⟨b, hr⟩, hs⟩

/-! ## A page size that is no `i32` -/

/-- one row in bucket 5 and one in bucket 4 -/
def twoBuckets : Messages where
  partition c b :=
    if c = 1 ∧ b = 5 then [textRow 18119393280000000 false]
    else if c = 1 ∧ b = 4 then [textRow 14495514624000000 false]
    else []
  sorted c b := by split_ifs <;> simp

theorem twoBuckets_rows {b : ℤ} {r : MessageRow} (hr : r ∈ twoBuckets.partition 1 b) :
    b = 5 ∧ r = textRow 18119393280000000 false ∨ b = 4 ∧ r = textRow 14495514624000000 false := by
  simp only [twoBuckets] at hr
  split_ifs at hr with h5 h4
  · exact .inl ⟨h5.2, List.mem_singleton.1 hr⟩
  · exact .inr ⟨h4.2, List.mem_singleton.1 hr⟩
  · cases hr

theorem twoBuckets_walkable : Walkable twoBuckets february 1 where
  placed b r hr := by
    rcases twoBuckets_rows hr with ⟨rfl, rfl⟩ | ⟨rfl, rfl⟩ <;> decide
  shown b r hr := by
    rcases twoBuckets_rows hr with ⟨rfl, rfl⟩ | ⟨rfl, rfl⟩ <;> decide
  ids b r hr := by
    rcases twoBuckets_rows hr with ⟨rfl, rfl⟩ | ⟨rfl, rfl⟩ <;> decide
  gap := by
    rintro x y ⟨b, hx⟩ ⟨b', hy⟩ - -
    rcases twoBuckets_rows hx with ⟨rfl, rfl⟩ | ⟨rfl, rfl⟩ <;>
      rcases twoBuckets_rows hy with ⟨rfl, rfl⟩ | ⟨rfl, rfl⟩ <;> decide
  newest := by
    rintro x ⟨b, hx⟩ -
    rcases twoBuckets_rows hx with ⟨rfl, rfl⟩ | ⟨rfl, rfl⟩ <;> decide

theorem backward_walk_twoBuckets : Lossless twoBuckets february 1 1 :=
  backward_walk twoBuckets february 1 1 twoBuckets_walkable (by decide) (by decide)

/-- the first request already fails, for any fuel -/
theorem page_size_cast : Walkable twoBuckets february 1 ∧ ¬ Lossless twoBuckets february 1 2147483648 := by
  refine ⟨twoBuckets_walkable, ?_⟩
  rintro ⟨pages, ⟨n, hn⟩, -⟩
  have hfail : queryMessages twoBuckets february 1 none none 2147483648 =
      .error (.internal "ScyllaDB error: LIMIT must be strictly positive") := by
    decide
  have hwalk := hn (n + 1) (Nat.le_succ n)
  rw [backwardWalk, walk, hfail] at hwalk
  cases hwalk

/-! ## A row of an `UPDATE` -/

/-- what an edit of a message that is not there leaves: a key, a content and a time -/
def editedOnly : MessageRow :=
  ⟨18119393280000000, none, some "hi", none, none, some 0, none, none, none, none, none, none, none, none⟩

def oneEdited : Messages where
  partition c b := if c = 1 ∧ b = 5 then [editedOnly] else []
  sorted c b := by split_ifs <;> simp

/-- **Not every walk is lossless.** The size of a page has to be an `i32`; and the walk of a channel of one row, which is
not deleted but lacks columns, is empty. -/
theorem walk_loses :
    (Walkable twoBuckets february 1 ∧ ¬ Lossless twoBuckets february 1 2147483648) ∧
      (∀ b, ∀ r ∈ oneEdited.partition 1 b, b = bucketOfId r.messageId ∧ r.deleted ≠ some true ∧ 0 ≤ r.messageId ∧
        bucketOfId r.messageId = bucketFromDatetime february) ∧
      editedOnly ∈ oneEdited.partition 1 5 ∧ backwardWalk oneEdited february 1 50 1 = .ok (some []) := by
  refine ⟨page_size_cast, ?_, by decide, by decide⟩
  intro b r hr
  simp only [oneEdited] at hr
  split_ifs at hr with h5
  · obtain rfl := List.mem_singleton.1 hr
    rw [h5.2]
    decide
  · cases hr

end Lumiere.Routes
