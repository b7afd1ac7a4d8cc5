/-
What one call of `query_messages` returns.

A page is exact when it holds the first `limit` non-deleted rows of the listing its mode asks for. `query_messages_exact`
says when it is: if and only if no bucket's `LIMIT` cuts off rows behind deleted ones (`CrispScan`). The listing is taken
in the order of the ids; the buckets follow that order wherever the ids are non-negative (`inOrder_of_nonneg`).

- `skipped_row`: two deleted rows use up the `LIMIT` of a bucket, and an older bucket fills the page.
- `crispScan_of_undeleted`: complete, undeleted rows and a limit that fits an `i32` make every scan crisp.
-/
import Lumiere.Core.Scan
import Lumiere.Routes.Messages

namespace Lumiere.Routes

open Lumiere.Core Lumiere.Models Lumiere.Db

/-! ## Modes -/

inductive Mode where
  | before (id : ℤ)
  | after (id : ℤ)
  | latest
deriving DecidableEq, Repr

namespace Mode

/-- `before` wins over `after` -/
def ofArgs : Option ℤ → Option ℤ → Mode
  | some id, _ => .before id
  | none, some id => .after id
  | none, none => .latest

/-- the ids beyond the cursor -/
def admits : Mode → ℤ → Prop
  | .before id, m => m < id
  | .after id, m => id < m
  | .latest, _ => True

/-- the buckets the mode looks at -/
def scans (now : DateTime) : Mode → ℤ → Prop
  | .before id, b => bucketOfId id - 20 ≤ b ∧ b ≤ bucketOfId id
  | .after id, b => bucketOfId id ≤ b ∧ b ≤ bucketFromDatetime now
  | .latest, b => bucketFromDatetime now - 20 ≤ b ∧ b ≤ bucketFromDatetime now

instance (now : DateTime) (m : Mode) (b : ℤ) : Decidable (m.scans now b) := by
  cases m <;> unfold scans <;> infer_instance

def precedes : Mode → MessageRow → MessageRow → Prop
  | .after _, x, y => x.messageId < y.messageId
  | _, x, y => y.messageId < x.messageId

/-- the buckets in the order of the scan -/
def buckets (now : DateTime) : Mode → List ℤ
  | .before id => bucketsBefore (Snowflake.ofI64 id) (max (bucketOfId id - 20) 0)
  | .after id => inclusive (bucketOfId id) (bucketFromDatetime now)
  | .latest => (inclusive (max (bucketFromDatetime now - 20) 0) (bucketFromDatetime now)).reverse

/-- the rows of a bucket beyond the cursor, in the mode's order -/
def rows (s : Messages) (channelId : ℤ) : Mode → ℤ → List MessageRow
  | .before id, b => (s.partition channelId b).filter fun r => r.messageId < id
  | .after id, b => (s.partition channelId b).reverse.filter fun r => id < r.messageId
  | .latest, b => s.partition channelId b

variable {s : Messages} {now : DateTime} {channelId : ℤ} {m : Mode}

theorem mem_rows {b : ℤ} {r : MessageRow} :
    r ∈ m.rows s channelId b ↔ r ∈ s.partition channelId b ∧ m.admits r.messageId := by
  cases m <;> simp [rows, admits]

theorem rows_pairwise (b : ℤ) : (m.rows s channelId b).Pairwise m.precedes := by
  cases m with
  | before id => exact (s.sorted channelId b).filter _
  | after id => exact (List.pairwise_reverse.2 (s.sorted channelId b)).filter _
  | latest => exact s.sorted channelId b

theorem mem_buckets {b : ℤ} (hb : 0 ≤ b) : b ∈ m.buckets now ↔ m.scans now b := by
  cases m <;> simp [buckets, scans, bucketsBefore, bucketOfId]
  all_goals omega

theorem precedes_trans {x y z : MessageRow} (h1 : m.precedes x y) (h2 : m.precedes y z) : m.precedes x z := by
  cases m <;> simp only [precedes] at * <;> omega

theorem precedes_irrefl (x : MessageRow) : ¬ m.precedes x x := by
  cases m <;> simp [precedes]

end Mode

/-! ## The page asked for -/

/-- the row is not marked as deleted -/
def live (r : MessageRow) : Bool := r.deleted ≠ some true

/-- the rows the mode asks for, in its order -/
structure Listing (s : Messages) (now : DateTime) (channelId : ℤ) (m : Mode) (rows : List MessageRow) : Prop where
  ordered : rows.Pairwise m.precedes
  mem : ∀ r, r ∈ rows ↔
    live r = true ∧ m.admits r.messageId ∧ ∃ b, m.scans now b ∧ r ∈ s.partition channelId b

/-- the call returns exactly the first `limit` rows of the listing -/
def PageExact (s : Messages) (now : DateTime) (channelId : ℤ) (before after : Option ℤ) (limit : ℕ) : Prop :=
  ∃ rows, Listing s now channelId (Mode.ofArgs before after) rows ∧
    ∃ page, queryMessages s now channelId before after limit = .ok page ∧
      page.map some = (rows.take limit).map (shown channelId)

/-- the rows of the scanned buckets, one after the other, are in the order of their ids -/
def InOrder (s : Messages) (now : DateTime) (channelId : ℤ) (m : Mode) : Prop :=
  ((m.buckets now).flatMap (m.rows s channelId)).Pairwise m.precedes

/-- the `LIMIT` of a read for `n` rows, where one is accepted -/
def limitFor (n : ℕ) : Option ℕ := if 0 < toI32 n then some (toI32 n).toNat else none

def CrispScan (s : Messages) (now : DateTime) (channelId : ℤ) (m : Mode) (limit : ℕ) : Prop :=
  Crisp limitFor (shown channelId) live limit ((m.buckets now).map (m.rows s channelId))

/-! ## The scan as a collection -/

theorem MsgRow.of_ofRow {channelId : ℤ} {r : MessageRow} {y : MsgRow} (h : MsgRow.ofRow channelId r = some y) :
    y.id = r.messageId ∧ r.deleted = some y.deleted := by
  simp only [MsgRow.ofRow, Option.bind_eq_bind, Option.bind_eq_some_iff, Option.pure_def, Option.some.injEq] at h
  obtain ⟨_, _, _, _, _, _, _, _, _, _, d, hd, rfl⟩ := h
  exact ⟨rfl, hd⟩

theorem shown_eq_some {channelId : ℤ} {r : MessageRow} {y : MsgRow} :
    shown channelId r = some y ↔ MsgRow.ofRow channelId r = some y ∧ y.deleted = false := by
  simp [shown, Option.filter_eq_some_iff]

theorem shown_live {channelId : ℤ} (r : MessageRow) (y : MsgRow) (h : shown channelId r = some y) : live r = true := by
  obtain ⟨hr, hd⟩ := shown_eq_some.1 h
  simp [live, (MsgRow.of_ofRow hr).2, hd]

theorem shown_id {channelId : ℤ} (r : MessageRow) (y : MsgRow) (h : shown channelId r = some y) :
    y.id = r.messageId := (MsgRow.of_ofRow (shown_eq_some.1 h).1).1

theorem toI32_le {n : ℕ} : toI32 n ≤ n := by
  unfold toI32
  rw [Int.bmod_def]
  split_ifs <;> omega

theorem limitFor_le (n m : ℕ) (h : limitFor n = some m) : m ≤ n := by
  have hle := toI32_le (n := n)
  unfold limitFor at h
  split_ifs at h
  simp only [Option.some.injEq] at h
  omega

theorem limitFor_eq {n : ℕ} (h0 : 0 < n) (h : n < 2 ^ 31) : limitFor n = some n := by
  have hn : toI32 n = n := toI32_of_lt (by omega) (by omega)
  unfold limitFor
  rw [hn, if_pos (by omega)]
  rfl

variable {s : Messages} {now : DateTime} {channelId : ℤ}

theorem queryMessages_eq (before after : Option ℤ) (limit : ℕ) :
    queryMessages s now channelId before after limit =
      scanBuckets channelId limit
        (fun b remaining => limited remaining ((Mode.ofArgs before after).rows s channelId b))
        ((Mode.ofArgs before after).buckets now) [] := by
  rcases before with _ | id
  · rcases after with _ | id <;> rfl
  · rfl

theorem limited_toI32 (n : ℕ) (rows : List MessageRow) :
    limited (toI32 n) rows = match limitFor n with
      | none => .error ⟨"LIMIT must be strictly positive"⟩
      | some m => .ok (rows.take m) := by
  by_cases h : 0 < toI32 n
  · rw [limited, if_pos h, limitFor, if_pos h]
  · rw [limited, if_neg h, limitFor, if_neg h]

section

variable {limit : ℕ} {read : ℤ → ℤ → Except ScyllaError (List MessageRow)}

theorem scanBuckets_cons {b : ℤ} {bs : List ℤ} {results : List MsgRow} (h : ¬ limit ≤ results.length) :
    scanBuckets channelId limit read (b :: bs) results =
      match read b (toI32 ((limit - results.length : ℕ) : ℤ)) with
      | .error e => .error (scyllaErr e)
      | .ok got => scanBuckets channelId limit read bs (results ++ extractMsgRows channelId got) :=
  if_neg h

theorem scanBuckets_eq_ok (rows : ℤ → List MessageRow) (hread : ∀ b v, read b v = limited v (rows b)) {bs : List ℤ}
    {results out : List MsgRow} :
    scanBuckets channelId limit read bs results = .ok out ↔
      ∃ page, collect limitFor (shown channelId) (limit - results.length) (bs.map rows) = some page ∧
        out = results ++ page := by
  induction bs generalizing results with
  | nil => simp [scanBuckets, collect, eq_comm]
  | cons b bs ih =>
    rw [List.map_cons, collect]
    rcases Nat.lt_or_ge results.length limit with hlt | hge
    · rw [scanBuckets_cons (by omega), if_neg (by omega), hread, limited_toI32]
      rcases limitFor (limit - results.length) with _ | m
      · simp
      · simp only [ih, extractMsgRows, List.length_append, Nat.sub_add_eq, Option.map_eq_some_iff]
        constructor
        · rintro ⟨page, hpage, rfl⟩
          exact ⟨_, ⟨page, hpage, rfl⟩, by rw [List.append_assoc]⟩
        · rintro ⟨_, ⟨page, hpage, rfl⟩, rfl⟩
          exact ⟨page, hpage, by rw [List.append_assoc]⟩
    · rw [scanBuckets, if_pos hge, if_pos (by omega)]
      simp [eq_comm]

end

theorem queryMessages_eq_ok {before after : Option ℤ} {limit : ℕ} {page : List MsgRow} :
    queryMessages s now channelId before after limit = .ok page ↔
      collect limitFor (shown channelId) limit
        (((Mode.ofArgs before after).buckets now).map ((Mode.ofArgs before after).rows s channelId)) = some page := by
  rw [queryMessages_eq, scanBuckets_eq_ok ((Mode.ofArgs before after).rows s channelId) fun _ _ => rfl]
  simp [eq_comm]

/-! ## Exact pages -/

/-- a listing is determined by its members -/
theorem Listing.unique {m : Mode} {l l' : List MessageRow} (h : Listing s now channelId m l)
    (h' : Listing s now channelId m l') : l = l' := by
  have hnd : ∀ {l}, Listing s now channelId m l → l.Nodup := fun h =>
    h.ordered.imp fun {x y} hxy => by rintro rfl; exact m.precedes_irrefl x hxy
  refine ((List.perm_ext_iff_of_nodup (hnd h) (hnd h')).2 fun r => ?_).eq_of_pairwise
    (fun x y _ _ hxy hyx => absurd (m.precedes_trans hxy hyx) (m.precedes_irrefl x)) h.ordered h'.ordered
  rw [h.mem, h'.mem]

theorem listing_of_inOrder {m : Mode} (hplaced : s.Placed channelId) (hord : InOrder s now channelId m) :
    Listing s now channelId m (((m.buckets now).flatMap (m.rows s channelId)).filter live) := by
  refine ⟨hord.filter _, fun r => ?_⟩
  simp only [List.mem_filter, List.mem_flatMap, Mode.mem_rows]
  constructor
  · rintro ⟨⟨b, hb, hr, ha⟩, hl⟩
    have h0 : 0 ≤ b := hplaced b r hr ▸ bucketOfId_nonneg _
    exact ⟨hl, ha, b, (Mode.mem_buckets h0).1 hb, hr⟩
  · rintro ⟨hl, ha, b, hb, hr⟩
    have h0 : 0 ≤ b := hplaced b r hr ▸ bucketOfId_nonneg _
    exact ⟨⟨b, (Mode.mem_buckets h0).2 hb, hr, ha⟩, hl⟩

theorem pageExact_iff {before after : Option ℤ} {limit : ℕ} {rows : List MessageRow}
    (h : Listing s now channelId (Mode.ofArgs before after) rows) :
    PageExact s now channelId before after limit ↔
      ∃ page, queryMessages s now channelId before after limit = .ok page ∧
        page.map some = (rows.take limit).map (shown channelId) := by
  constructor
  · rintro ⟨rows', h', hpage⟩
    rwa [h.unique h']
  · intro hpage
    exact ⟨rows, h, hpage⟩

/-- **Exact pages.** Where the buckets follow the ids, a page is exact if and only if its scan is crisp. -/
theorem query_messages_exact (s : Messages) (now : DateTime) (channelId : ℤ) (before after : Option ℤ) (limit : ℕ)
    (hplaced : s.Placed channelId) (hord : InOrder s now channelId (Mode.ofArgs before after)) :
    PageExact s now channelId before after limit ↔
      CrispScan s now channelId (Mode.ofArgs before after) limit := by
  rw [pageExact_iff (listing_of_inOrder hplaced hord), List.flatMap_def]
  simp only [queryMessages_eq_ok]
  refine collect_exact MsgRow.id MessageRow.messageId shown_live shown_id limitFor_le ?_
  rw [← List.flatMap_def]
  refine List.pairwise_map.2 (hord.imp fun {x y} hxy => ?_)
  generalize Mode.ofArgs before after = m at hxy
  cases m <;> simp only [Mode.precedes] at hxy <;> omega

/-! ## When it applies -/

/-- the ids of the channel are non-negative values of a signed column -/
def NonnegIds (s : Messages) (channelId : ℤ) : Prop :=
  ∀ b, ∀ r ∈ s.partition channelId b, 0 ≤ r.messageId ∧ r.messageId < 2 ^ 63

/-- rows of a placed channel with non-negative ids are ordered like their buckets -/
theorem lt_of_bucket_lt (hplaced : s.Placed channelId) (hids : NonnegIds s channelId) {b b' : ℤ} {x y : MessageRow}
    (hx : x ∈ s.partition channelId b) (hy : y ∈ s.partition channelId b') (hb : b < b') :
    x.messageId < y.messageId := by
  by_contra hle
  have := bucketOfId_mono (hids b' y hy).1 (not_lt.1 hle) (hids b x hx).2
  rw [← hplaced b x hx, ← hplaced b' y hy] at this
  omega

theorem inOrder_of_lt {m : Mode} (h : ∀ b ∈ m.buckets now, ∀ b' ∈ m.buckets now, ∀ x ∈ m.rows s channelId b,
    ∀ y ∈ m.rows s channelId b', b < b' → x.messageId < y.messageId) : InOrder s now channelId m := by
  refine List.pairwise_flatMap.2 ⟨fun b _ => Mode.rows_pairwise b, ?_⟩
  cases m with
  | after id =>
    exact (inclusive_pairwise _ _).imp_of_mem fun {b b'} hb hb' hlt x hx y hy => h b hb b' hb' x hx y hy hlt
  | before id =>
    exact (List.pairwise_reverse.2 (inclusive_pairwise _ _)).imp_of_mem fun {b b'} hb hb' hlt x hx y hy =>
      h b' hb' b hb y hy x hx hlt
  | latest =>
    exact (List.pairwise_reverse.2 (inclusive_pairwise _ _)).imp_of_mem fun {b b'} hb hb' hlt x hx y hy =>
      h b' hb' b hb y hy x hx hlt

theorem inOrder_of_nonneg {m : Mode} (hplaced : s.Placed channelId) (hids : NonnegIds s channelId) :
    InOrder s now channelId m := by
  refine inOrder_of_lt fun b _ b' _ x hx y hy hlt => ?_
  exact lt_of_bucket_lt hplaced hids (Mode.mem_rows.1 hx).1 (Mode.mem_rows.1 hy).1 hlt

/-- the ids of the channel are values of a signed column -/
def SignedIds (s : Messages) (channelId : ℤ) : Prop :=
  ∀ b, ∀ r ∈ s.partition channelId b, -2 ^ 63 ≤ r.messageId ∧ r.messageId < 2 ^ 63

/-- the ids in the bucket of an id have its sign -/
def SameSign (s : Messages) (channelId id : ℤ) : Prop :=
  ∀ r ∈ s.partition channelId (bucketOfId id), 0 ≤ r.messageId ↔ 0 ≤ id

/-- which can only fail in the bucket of 2^63 -/
theorem sameSign_of_bucket_ne {id : ℤ} (hplaced : s.Placed channelId) (hids : SignedIds s channelId)
    (hid : -2 ^ 63 ≤ id ∧ id < 2 ^ 63) (h : bucketOfId id ≠ 2545) : SameSign s channelId id := by
  intro r hr
  have hbucket := hplaced _ r hr
  have hrow := bucketOfId_sign (hids _ r hr)
  have hown := bucketOfId_sign hid
  omega

/-- no row beyond the id, in the buckets that are scanned from it, has an id of the other sign -/
theorem sign_of_mem_rows {m : Mode} {id b : ℤ} {r : MessageRow} (hplaced : s.Placed channelId)
    (hids : SignedIds s channelId) (hid : -2 ^ 63 ≤ id ∧ id < 2 ^ 63) (hsign : SameSign s channelId id)
    (hm : m = .after id ∨ m = .before id) (hb : b ∈ m.buckets now) (hr : r ∈ m.rows s channelId b) :
    0 ≤ r.messageId ↔ 0 ≤ id := by
  obtain ⟨hr, hbeyond⟩ := Mode.mem_rows.1 hr
  have hbucket := hplaced b r hr
  have hscans := (Mode.mem_buckets (hbucket ▸ bucketOfId_nonneg _)).1 hb
  have hrow := bucketOfId_sign (hids b r hr)
  have hown := bucketOfId_sign hid
  by_cases hself : b = bucketOfId id
  · rw [hself] at hr
    exact hsign r hr
  · rcases hm with rfl | rfl
    · simp only [Mode.admits, Mode.scans] at hbeyond hscans
      omega
    · simp only [Mode.admits, Mode.scans] at hbeyond hscans
      omega

/-- around an id the rows of the scanned buckets are ordered like these -/
theorem inOrder_around {m : Mode} {id : ℤ} (hplaced : s.Placed channelId) (hids : SignedIds s channelId)
    (hid : -2 ^ 63 ≤ id ∧ id < 2 ^ 63) (hsign : SameSign s channelId id) (hm : m = .after id ∨ m = .before id) :
    InOrder s now channelId m := by
  refine inOrder_of_lt fun b hb b' hb' x hx y hy hlt => ?_
  have hsigns := (sign_of_mem_rows hplaced hids hid hsign hm hb hx).trans
    (sign_of_mem_rows hplaced hids hid hsign hm hb' hy).symm
  obtain ⟨hx, -⟩ := Mode.mem_rows.1 hx
  obtain ⟨hy, -⟩ := Mode.mem_rows.1 hy
  by_contra hle
  have hmono : bucketOfId y.messageId ≤ bucketOfId x.messageId := by
    by_cases h0 : 0 ≤ y.messageId
    · exact bucketOfId_mono h0 (not_lt.1 hle) (hids b x hx).2
    · exact bucketOfId_mono_of_neg (hids b' y hy).1 (not_lt.1 hle) (not_le.1 (h0 ∘ hsigns.1))
  rw [← hplaced b x hx, ← hplaced b' y hy] at hmono
  omega

/-- the rows of the channel are complete and not deleted -/
def AllShown (s : Messages) (channelId : ℤ) : Prop := ∀ b, ∀ r ∈ s.partition channelId b, (shown channelId r).isSome

theorem crispScan_of_undeleted {m : Mode} {limit : ℕ} (h : AllShown s channelId) (hlimit : limit < 2 ^ 31) :
    CrispScan s now channelId m limit := by
  refine crisp_of_shown shown_live (fun k hk hle => limitFor_eq hk (by omega)) fun r hr => ?_
  rw [← List.flatMap_def, List.mem_flatMap] at hr
  obtain ⟨b, -, hr⟩ := hr
  exact h b r (Mode.mem_rows.1 hr).1

/-! ## A skipped row -/

/-- a complete row -/
def textRow (id : ℤ) (deleted : Bool) : MessageRow :=
  ⟨id, some 1, some "hi", some 0, some 0, none, some false, some false, none, none, none, none, none, some deleted⟩

/-- the newest two rows of bucket 5 are deleted; one row of it and one of bucket 4 are not -/
def deletedTop : Messages where
  partition c b :=
    if c = 1 ∧ b = 5 then
      [textRow 18119393280000002 true, textRow 18119393280000001 true, textRow 18119393280000000 false]
    else if c = 1 ∧ b = 4 then [textRow 14495514624000000 false]
    else []
  sorted c b := by split_ifs <;> simp [textRow]

/-- 2024-02-20T00:00:00Z, in bucket 5 -/
def february : DateTime := ⟨1708387200000⟩

theorem deletedTop_rows {b : ℤ} {r : MessageRow} (hr : r ∈ deletedTop.partition 1 b) :
    b = bucketOfId r.messageId ∧ 0 ≤ r.messageId ∧ r.messageId < 2 ^ 63 := by
  simp only [deletedTop] at hr
  split_ifs at hr with h5 h4
  · obtain ⟨-, rfl⟩ := h5
    revert r
    decide
  · obtain ⟨-, rfl⟩ := h4
    revert r
    decide
  · cases hr

theorem skipped_row :
    queryMessages deletedTop february 1 none none 2 =
      .ok [⟨14495514624000000, 1, 1, some "hi", 0, 0, none, false, false, none, none, none, none, none, false⟩] ∧
    ¬ PageExact deletedTop february 1 none none 2 := by
  have hq : queryMessages deletedTop february 1 none none 2 =
      .ok [⟨14495514624000000, 1, 1, some "hi", 0, 0, none, false, false, none, none, none, none, none, false⟩] := by
    decide
  refine ⟨hq, ?_⟩
  rintro ⟨rows, hl, page, hpage, heq⟩
  have h5 : textRow 18119393280000000 false ∈ rows :=
    (hl.mem _).2 ⟨by decide, trivial, 5, by decide, by decide⟩
  have h4 : textRow 14495514624000000 false ∈ rows :=
    (hl.mem _).2 ⟨by decide, trivial, 4, by decide, by decide⟩
  -- two rows are asked for and one is returned
  have hlen := congrArg List.length heq
  rw [hq] at hpage
  cases hpage
  rcases rows with _ | ⟨x, _ | ⟨y, rows⟩⟩
  · cases h5
  · rw [List.mem_singleton] at h5 h4
    exact absurd (h5.trans h4.symm) (by decide)
  · simp at hlen

theorem query_messages_exact_deletedTop :
    PageExact deletedTop february 1 none none 3 ↔ CrispScan deletedTop february 1 .latest 3 :=
  query_messages_exact deletedTop february 1 none none 3 (fun _ _ hr => (deletedTop_rows hr).1)
    (inOrder_of_nonneg (fun _ _ hr => (deletedTop_rows hr).1) fun _ _ hr => (deletedTop_rows hr).2)

end Lumiere.Routes
