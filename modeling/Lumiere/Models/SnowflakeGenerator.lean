/-
`SnowflakeGenerator::next_id` under any interleaving of threads (`lumiere-models/src/snowflake.rs`).

Threads are numbered; any number of them may be inside `next_id`. One loop iteration is three atomic steps: read the
clock, load the packed state, compare-and-exchange it. The exchange may fail spuriously. An iteration that finds the
sequence exhausted goes back to the clock.

Ghost state, written and never read by the code:
- `readings`: every clock reading made so far;
- `issued`: the ids in the order of the successful exchanges;
- `returned`: the calls that have returned, in that order, each with `snap`, how many calls had returned when it started.

Result: `next_id_concurrent`.
-/
import Lumiere.Core.Run
import Lumiere.Models.Snowflake

namespace Lumiere.Models

open Lumiere.Core

/-! ## Model -/

/-- `new` asserts the bound, so a generator with a larger machine id does not exist -/
structure SnowflakeGenerator where
  machineId : UInt16
  ok : machineId ≤ maxMachineId

def SnowflakeGenerator.new (machineId : UInt16) : Option SnowflakeGenerator :=
  if h : machineId ≤ maxMachineId then some ⟨machineId, h⟩ else none

namespace SnowflakeGenerator

/-- `as_millis() as u64 - LUMIERE_EPOCH` for a system clock of `unixMs` milliseconds -/
def currentTimestampMs (unixMs : ℕ) : UInt64 := UInt64.ofNat unixMs - lumiereEpoch

/-- the loop body between the load and the exchange: the new timestamp and sequence, or `none` for `continue` -/
def nextFields (now oldState : UInt64) : Option (UInt64 × UInt16) :=
  let oldTs := oldState >>> sequenceBits
  let oldSeq := (oldState &&& maxSequence.toUInt64).toUInt16
  if now > oldTs then some (now, 0)
  else
    let nextSeq := oldSeq + 1
    if nextSeq > maxSequence then none else some (oldTs, nextSeq)

/-- upper 52 bits timestamp, lower 12 bits sequence -/
def packState (ts : UInt64) (seq : UInt16) : UInt64 := (ts <<< sequenceBits) ||| seq.toUInt64

structure Issue where
  id : Snowflake
  /-- the clock reading of the call's last loop iteration -/
  reading : UInt64
  /-- how many calls had returned when this call started -/
  snap : ℕ
deriving DecidableEq, Repr

inductive Pc where
  | idle
  | top (snap : ℕ)
  | clocked (snap : ℕ) (now : UInt64)
  | ready (snap : ℕ) (now oldState newTs : UInt64) (newSeq : UInt16)
  | won (e : Issue)
deriving DecidableEq, Repr

structure St where
  state : UInt64
  pc : ℕ → Pc
  readings : List UInt64
  issued : List Issue
  returned : List Issue

inductive Op where
  | call (t : ℕ)
  | clock (t unixMs : ℕ)
  | load (t : ℕ)
  | cas (t : ℕ) (spurious : Bool)
  | ret (t : ℕ)
deriving DecidableEq, Repr

def init : St := ⟨0, fun _ => .idle, [], [], []⟩

def goto (s : St) (t : ℕ) (p : Pc) : St := { s with pc := Function.update s.pc t p }

def step (G : SnowflakeGenerator) (s : St) : Op → St
  | .call t =>
    match s.pc t with
    | .idle => goto s t (.top s.returned.length)
    | _ => s
  | .clock t unixMs =>
    match s.pc t with
    | .top k =>
      let now := currentTimestampMs unixMs
      goto { s with readings := s.readings ++ [now] } t (.clocked k now)
    | _ => s
  | .load t =>
    match s.pc t with
    | .clocked k now =>
      match nextFields now s.state with
      | none => goto s t (.top k)
      | some (ts, seq) => goto s t (.ready k now s.state ts seq)
    | _ => s
  | .cas t spurious =>
    match s.pc t with
    | .ready k now old ts seq =>
      if s.state = old ∧ spurious = false then
        let e : Issue := ⟨⟨packId ts G.machineId seq⟩, now, k⟩
        goto { s with state := packState ts seq, issued := s.issued ++ [e] } t (.won e)
      else goto s t (.top k)
    | _ => s
  | .ret t =>
    match s.pc t with
    | .won e => goto { s with returned := s.returned ++ [e] } t .idle
    | _ => s

/-- the clock is between the Lumiere epoch and `2^42` milliseconds after it -/
def Op.clockOk : Op → Prop
  | .clock _ unixMs => lumiereEpoch.toNat ≤ unixMs ∧ unixMs < lumiereEpoch.toNat + 2 ^ 42
  | _ => True

instance (o : Op) : Decidable o.clockOk := by
  cases o <;> unfold Op.clockOk <;> infer_instance

/-! ## One loop iteration -/

theorem currentTimestampMs_lt {t unixMs : ℕ} (h : (Op.clock t unixMs).clockOk) :
    (currentTimestampMs unixMs).toNat < 2 ^ 42 := by
  obtain ⟨h1, h2⟩ := h
  have he : lumiereEpoch.toNat = 1704067200000 := rfl
  rw [he] at h1 h2
  have hu : (UInt64.ofNat unixMs).toNat = unixMs := by
    rw [UInt64.toNat_ofNat']; omega
  rw [currentTimestampMs, UInt64.toNat_sub_of_le]
  · rw [hu, he]; omega
  · rw [UInt64.le_iff_toNat_le, hu, he]; exact h1

theorem toNat_packState {ts : UInt64} {seq : UInt16} (hts : ts.toNat < 2 ^ 42) (hseq : seq ≤ maxSequence) :
    (packState ts seq).toNat = ts.toNat * 2 ^ 12 + seq.toNat := by
  have hs : seq.toNat ≤ 4095 := hseq
  have hts64 : ts.toNat * 2 ^ sequenceBits.toNat < 2 ^ 64 := by
    show ts.toNat * 2 ^ 12 < 2 ^ 64; omega
  have hs64 : seq.toUInt64.toNat < 2 ^ sequenceBits.toNat := by
    rw [UInt16.toNat_toUInt64]; show seq.toNat < 2 ^ 12; omega
  exact toNat_pack (by decide) hts64 hs64

/-- what an iteration that reaches the exchange computes from the clock and the loaded word -/
structure Advances (now old ts : UInt64) (seq : UInt16) : Prop where
  ts_lt : ts.toNat < 2 ^ 42
  seq_le : seq ≤ maxSequence
  now_le : now ≤ ts
  from_now_or_old : ts = now ∨ ts.toNat = old.toNat / 2 ^ 12
  grows : old.toNat < (packState ts seq).toNat

theorem nextFields_advances {now old ts : UInt64} {seq : UInt16} (hnow : now.toNat < 2 ^ 42)
    (hold : old.toNat < 2 ^ 54) (h : nextFields now old = some (ts, seq)) : Advances now old ts seq := by
  have hshr : (old >>> sequenceBits).toNat = old.toNat / 2 ^ 12 := toNat_shr (by decide)
  have hmask : maxSequence.toUInt64.toNat = 2 ^ 12 - 1 := by decide
  have hseq : (old &&& maxSequence.toUInt64).toUInt16.toNat = old.toNat % 2 ^ 12 := by
    rw [UInt64.toNat_toUInt16, toNat_mask hmask]; omega
  simp only [nextFields] at h
  split_ifs at h with hgt hmax
  · simp only [Option.some.injEq, Prod.mk.injEq] at h
    obtain ⟨rfl, rfl⟩ := h
    have hlt : (old >>> sequenceBits).toNat < now.toNat := hgt
    rw [hshr] at hlt
    refine ⟨hnow, by decide, le_refl now.toNat, Or.inl rfl, ?_⟩
    rw [toNat_packState hnow (by decide)]
    show old.toNat < now.toNat * 2 ^ 12 + 0
    omega
  · simp only [Option.some.injEq, Prod.mk.injEq] at h
    obtain ⟨rfl, rfl⟩ := h
    have hle : now.toNat ≤ (old >>> sequenceBits).toNat := Nat.le_of_not_lt hgt
    have hone : ((old &&& maxSequence.toUInt64).toUInt16 + 1).toNat = old.toNat % 2 ^ 12 + 1 := by
      rw [UInt16.toNat_add, hseq]
      show (old.toNat % 2 ^ 12 + 1) % 2 ^ 16 = _
      omega
    have hseqle : (old &&& maxSequence.toUInt64).toUInt16 + 1 ≤ maxSequence := Nat.le_of_not_lt hmax
    have hts : (old >>> sequenceBits).toNat < 2 ^ 42 := by rw [hshr]; omega
    refine ⟨hts, hseqle, hle, Or.inr hshr, ?_⟩
    rw [toNat_packState hts hseqle, hone, hshr]
    omega

/-- the id a generator with machine id m issues for a packed word -/
def idOfWord (m w : ℕ) : ℕ := w / 2 ^ 12 * 2 ^ 22 + (m * 2 ^ 12 + w % 2 ^ 12)

theorem idOfWord_lt {m w w' : ℕ} (hm : m ≤ 1023) (h : w < w') : idOfWord m w < idOfWord m w' := by
  apply pack_lt_pack
  · omega
  · have := Nat.div_add_mod w (2 ^ 12)
    have := Nat.div_add_mod w' (2 ^ 12)
    omega

/-! ## The invariant -/

/-- what holds of a thread at each point of `next_id` -/
def PcOk (s : St) : Pc → Prop
  | .idle => True
  | .top k => k ≤ s.returned.length
  | .clocked k now => k ≤ s.returned.length ∧ now ∈ s.readings
  | .ready k now old ts seq => k ≤ s.returned.length ∧ now ∈ s.readings ∧ nextFields now old = some (ts, seq)
  | .won e => e ∈ s.issued ∧ e.snap ≤ s.returned.length ∧ ∀ r ∈ s.returned.take e.snap, r.id.value < e.id.value

/-- the fields of an issued id -/
def IssueOk (G : SnowflakeGenerator) (s : St) (e : Issue) : Prop :=
  e.id.machineId = G.machineId ∧ e.reading ≤ e.id.timestampMs ∧ ∃ r ∈ s.readings, e.id.timestampMs ≤ r

structure Inv (G : SnowflakeGenerator) (s : St) : Prop where
  state_lt : s.state.toNat < 2 ^ 54
  state_read : s.state.toNat / 2 ^ 12 = 0 ∨ ∃ r ∈ s.readings, s.state.toNat / 2 ^ 12 ≤ r.toNat
  readings_lt : ∀ r ∈ s.readings, r.toNat < 2 ^ 42
  pcs : ∀ t, PcOk s (s.pc t)
  /-- the packed word bounds every id issued so far -/
  issued_le : ∀ e ∈ s.issued, e.id.value.toNat ≤ idOfWord G.machineId.toNat s.state.toNat
  issued_sorted : s.issued.Pairwise (fun a b => a.id.value < b.id.value)
  issued_ok : ∀ e ∈ s.issued, IssueOk G s e
  returned_sub : ∀ e ∈ s.returned, e ∈ s.issued
  returned_nodup : s.returned.Nodup
  returned_after : ∀ (j : ℕ) (e : Issue), s.returned[j]? = some e →
    e.snap ≤ j ∧ ∀ r ∈ s.returned.take e.snap, r.id.value < e.id.value
  won_pending : ∀ t e, s.pc t = .won e → e ∉ s.returned
  won_inj : ∀ t t' e, s.pc t = .won e → s.pc t' = .won e → t = t'

theorem inv_init (G : SnowflakeGenerator) : Inv G init := by
  constructor <;> simp [init, PcOk]

@[simp] theorem goto_pc_self (s : St) (t : ℕ) (p : Pc) : (goto s t p).pc t = p := by simp [goto]

theorem goto_pc_ne (s : St) {t t' : ℕ} (p : Pc) (h : t' ≠ t) : (goto s t p).pc t' = s.pc t' := by simp [goto, h]

theorem Inv.goto {G : SnowflakeGenerator} {s : St} (h : Inv G s) (t : ℕ) {p : Pc} (hp : PcOk s p)
    (hwon : ∀ e, p ≠ .won e) : Inv G (goto s t p) := by
  refine { h with pcs := ?_, won_pending := ?_, won_inj := ?_ }
  · intro t'
    by_cases ht : t' = t
    · subst ht; rw [goto_pc_self]; exact hp
    · rw [goto_pc_ne s p ht]; exact h.pcs t'
  · intro t' e he
    by_cases ht : t' = t
    · subst ht; rw [goto_pc_self] at he; exact absurd he (hwon e)
    · rw [goto_pc_ne s p ht] at he; exact h.won_pending t' e he
  · intro t1 t2 e h1 h2
    have hne : ∀ t', (SnowflakeGenerator.goto s t p).pc t' = .won e → t' ≠ t := by
      rintro t' he rfl
      rw [goto_pc_self] at he
      exact hwon e he
    rw [goto_pc_ne s p (hne t1 h1)] at h1
    rw [goto_pc_ne s p (hne t2 h2)] at h2
    exact h.won_inj t1 t2 e h1 h2

theorem Inv.readClock {G : SnowflakeGenerator} {s : St} (h : Inv G s) {now : UInt64} (hnow : now.toNat < 2 ^ 42) :
    Inv G { s with readings := s.readings ++ [now] } := by
  refine { h with state_read := ?_, readings_lt := ?_, pcs := ?_, issued_ok := ?_ }
  · rcases h.state_read with h0 | ⟨r, hr, hle⟩
    · exact Or.inl h0
    · exact Or.inr ⟨r, List.mem_append_left _ hr, hle⟩
  · intro r hr
    rcases List.mem_append.1 hr with hr | hr
    · exact h.readings_lt r hr
    · rw [List.mem_singleton] at hr; rw [hr]; exact hnow
  · intro t
    have ht := h.pcs t
    cases hpc : s.pc t <;> simp only [hpc, PcOk] at ht ⊢
    · exact ht
    · exact ⟨ht.1, List.mem_append_left _ ht.2⟩
    · exact ⟨ht.1, List.mem_append_left _ ht.2.1, ht.2.2⟩
    · exact ht
  · intro e he
    obtain ⟨hm, hr, r, hrm, hle⟩ := h.issued_ok e he
    exact ⟨hm, hr, r, List.mem_append_left _ hrm, hle⟩

/-- **A successful exchange.** The new word exceeds the one it replaces, so the new id exceeds every issued id. -/
theorem Inv.issue {G : SnowflakeGenerator} {s : St} (h : Inv G s) {t k : ℕ} {now ts : UInt64} {seq : UInt16}
    (hpc : s.pc t = .ready k now s.state ts seq) :
    let e : Issue := ⟨⟨packId ts G.machineId seq⟩, now, k⟩
    Inv G (SnowflakeGenerator.goto { s with state := packState ts seq, issued := s.issued ++ [e] } t (.won e)) := by
  intro e
  have hready := h.pcs t
  rw [hpc] at hready
  obtain ⟨hk, hnow, hnext⟩ := hready
  have hadv := nextFields_advances (h.readings_lt now hnow) h.state_lt hnext
  have hseq : seq.toNat ≤ 4095 := hadv.seq_le
  have hm : G.machineId.toNat ≤ 1023 := G.ok
  have hword := toNat_packState hadv.ts_lt hadv.seq_le
  have hts : ts.toNat < 2 ^ 42 := hadv.ts_lt
  have hid : e.id.value.toNat = idOfWord G.machineId.toNat (packState ts seq).toNat := by
    show (packId ts G.machineId seq).toNat = _
    rw [toNat_packId hadv.ts_lt G.ok hadv.seq_le, hword, idOfWord]
    omega
  have hbelow : ∀ e' ∈ s.issued, e'.id.value < e.id.value := by
    intro e' he'
    rw [UInt64.lt_iff_toNat_lt, hid]
    exact lt_of_le_of_lt (h.issued_le e' he') (idOfWord_lt hm hadv.grows)
  have hfresh : e ∉ s.issued := fun he => UInt64.lt_irrefl _ (hbelow e he)
  have htsread : ∃ r ∈ s.readings, ts ≤ r := by
    rcases hadv.from_now_or_old with rfl | hold
    · exact ⟨ts, hnow, le_refl ts.toNat⟩
    · rcases h.state_read with h0 | ⟨r, hr, hle⟩
      · exact ⟨now, hnow, by rw [UInt64.le_iff_toNat_le, hold, h0]; exact Nat.zero_le _⟩
      · exact ⟨r, hr, by rw [UInt64.le_iff_toNat_le, hold]; exact hle⟩
  have hnew : ∀ t' e', (SnowflakeGenerator.goto { s with state := packState ts seq, issued := s.issued ++ [e] } t
      (.won e)).pc t' = .won e' → (t' = t ∧ e' = e) ∨ (t' ≠ t ∧ s.pc t' = .won e') := by
    intro t' e' he'
    by_cases ht : t' = t
    · subst ht; rw [goto_pc_self] at he'; cases he'; exact Or.inl ⟨rfl, rfl⟩
    · rw [goto_pc_ne _ _ ht] at he'; exact Or.inr ⟨ht, he'⟩
  refine { h with state_lt := ?_, state_read := ?_, pcs := ?_, issued_le := ?_, issued_sorted := ?_, issued_ok := ?_,
                  returned_sub := ?_, won_pending := ?_, won_inj := ?_ }
  · show (packState ts seq).toNat < 2 ^ 54
    rw [hword]; omega
  · obtain ⟨r, hr, hle⟩ := htsread
    refine Or.inr ⟨r, hr, ?_⟩
    show (packState ts seq).toNat / 2 ^ 12 ≤ r.toNat
    have hle' : ts.toNat ≤ r.toNat := hle
    rw [hword]; omega
  · intro t'
    by_cases ht : t' = t
    · subst ht
      rw [goto_pc_self]
      refine ⟨List.mem_append_right _ (List.mem_singleton_self e), hk, fun r hr => ?_⟩
      exact hbelow r (h.returned_sub r (List.mem_of_mem_take hr))
    · rw [goto_pc_ne _ _ ht]
      have hpc' := h.pcs t'
      cases hp : s.pc t' with
      | idle => trivial
      | won e' => rw [hp] at hpc'; exact ⟨List.mem_append_left _ hpc'.1, hpc'.2⟩
      | _ => rw [hp] at hpc'; exact hpc'
  · intro e' he'
    show _ ≤ idOfWord G.machineId.toNat (packState ts seq).toNat
    rcases List.mem_append.1 he' with he' | he'
    · exact le_of_lt (lt_of_le_of_lt (h.issued_le e' he') (idOfWord_lt hm hadv.grows))
    · rw [List.mem_singleton] at he'; rw [he', hid]
  · refine List.pairwise_append.2 ⟨h.issued_sorted, List.pairwise_singleton _ _, fun a ha b hb => ?_⟩
    rw [List.mem_singleton] at hb; rw [hb]; exact hbelow a ha
  · intro e' he'
    rcases List.mem_append.1 he' with he' | he'
    · exact h.issued_ok e' he'
    · rw [List.mem_singleton] at he'
      subst he'
      have hstamp : e.id.timestampMs = ts := timestampMs_packId hadv.ts_lt G.ok hadv.seq_le
      refine ⟨machineId_packId hadv.ts_lt G.ok hadv.seq_le, ?_, ?_⟩
      · rw [hstamp]; exact hadv.now_le
      · rw [hstamp]; exact htsread
  · intro e' he'
    exact List.mem_append_left _ (h.returned_sub e' he')
  · intro t' e' he'
    rcases hnew t' e' he' with ⟨-, he⟩ | ⟨-, he'⟩
    · rw [he]; exact fun hr => hfresh (h.returned_sub e hr)
    · exact h.won_pending t' e' he'
  · intro t1 t2 e' h1 h2
    -- nobody else can already hold the new issue
    have hother : ∀ t', s.pc t' ≠ .won e := fun t' he' => by
      have hp := h.pcs t'
      rw [he'] at hp
      exact hfresh hp.1
    rcases hnew t1 e' h1 with ⟨ht1, he1⟩ | ⟨-, h1'⟩ <;> rcases hnew t2 e' h2 with ⟨ht2, he2⟩ | ⟨-, h2'⟩
    · rw [ht1, ht2]
    · exact absurd (he1 ▸ h2') (hother t2)
    · exact absurd (he2 ▸ h1') (hother t1)
    · exact h.won_inj t1 t2 e' h1' h2'

/-- **A return.** The call joins `returned`; what it was compared with when it started is below it. -/
theorem Inv.ret {G : SnowflakeGenerator} {s : St} (h : Inv G s) {t : ℕ} {e : Issue} (hpc : s.pc t = .won e) :
    Inv G (SnowflakeGenerator.goto { s with returned := s.returned ++ [e] } t .idle) := by
  have hwon := h.pcs t
  rw [hpc] at hwon
  obtain ⟨hiss, hsnap, hafter⟩ := hwon
  have hold : ∀ t' e', (SnowflakeGenerator.goto { s with returned := s.returned ++ [e] } t .idle).pc t' = .won e' →
      t' ≠ t ∧ s.pc t' = .won e' := by
    intro t' e' he'
    by_cases ht : t' = t
    · subst ht; rw [goto_pc_self] at he'; cases he'
    · rw [goto_pc_ne _ _ ht] at he'; exact ⟨ht, he'⟩
  have hgrow : ∀ k ≤ s.returned.length, k ≤ (s.returned ++ [e]).length := fun k hk => by
    rw [List.length_append]; omega
  have htake : ∀ k ≤ s.returned.length, (s.returned ++ [e]).take k = s.returned.take k :=
    fun k hk => List.take_append_of_le_length hk
  refine { h with pcs := ?_, returned_sub := ?_, returned_nodup := ?_, returned_after := ?_, won_pending := ?_,
                  won_inj := ?_ }
  · intro t'
    by_cases ht : t' = t
    · subst ht; rw [goto_pc_self]; trivial
    · rw [goto_pc_ne _ _ ht]
      have hpc' := h.pcs t'
      cases hp : s.pc t' with
      | idle => trivial
      | top k => rw [hp] at hpc'; exact hgrow k hpc'
      | clocked k now => rw [hp] at hpc'; exact ⟨hgrow k hpc'.1, hpc'.2⟩
      | ready k now old ts seq => rw [hp] at hpc'; exact ⟨hgrow k hpc'.1, hpc'.2⟩
      | won e' =>
        rw [hp] at hpc'
        refine ⟨hpc'.1, hgrow e'.snap hpc'.2.1, ?_⟩
        show ∀ r ∈ (s.returned ++ [e]).take e'.snap, _
        rw [htake e'.snap hpc'.2.1]
        exact hpc'.2.2
  · intro e' he'
    rcases List.mem_append.1 he' with he' | he'
    · exact h.returned_sub e' he'
    · rw [List.mem_singleton] at he'; rw [he']; exact hiss
  · refine List.nodup_append.2 ⟨h.returned_nodup, List.nodup_singleton e, fun a ha b hb => ?_⟩
    rw [List.mem_singleton] at hb
    rintro rfl
    exact h.won_pending t e hpc (hb ▸ ha)
  · intro j f hj
    show f.snap ≤ j ∧ ∀ r ∈ (s.returned ++ [e]).take f.snap, _
    change (s.returned ++ [e])[j]? = some f at hj
    rcases lt_or_ge j s.returned.length with hlt | hge
    · rw [List.getElem?_append_left hlt] at hj
      obtain ⟨h1, h2⟩ := h.returned_after j f hj
      rw [htake f.snap (by omega)]
      exact ⟨h1, h2⟩
    · rw [List.getElem?_append_right hge] at hj
      have hf := List.mem_singleton.1 (List.mem_of_getElem? hj)
      rw [hf, htake e.snap hsnap]
      exact ⟨by omega, hafter⟩
  · intro t' e' he' hr
    obtain ⟨hne, hpc'⟩ := hold t' e' he'
    rcases List.mem_append.1 hr with hr | hr
    · exact h.won_pending t' e' hpc' hr
    · rw [List.mem_singleton.1 hr] at hpc'
      exact hne (h.won_inj t' t e hpc' hpc)
  · intro t1 t2 e' h1 h2
    exact h.won_inj t1 t2 e' (hold t1 e' h1).2 (hold t2 e' h2).2

theorem step_inv (G : SnowflakeGenerator) (s : St) (o : Op) (ho : o.clockOk) (h : Inv G s) : Inv G (step G s o) := by
  cases o with
  | call t =>
    simp only [step]
    split
    · exact h.goto t le_rfl (by simp)
    · exact h
  | clock t unixMs =>
    simp only [step]
    split
    · rename_i k hpc
      have hk := h.pcs t
      rw [hpc] at hk
      exact (h.readClock (currentTimestampMs_lt (t := t) ho)).goto t
        ⟨hk, List.mem_append_right _ (List.mem_singleton_self _)⟩ (by simp)
    · exact h
  | load t =>
    simp only [step]
    split
    · rename_i k now hpc
      have hk := h.pcs t
      rw [hpc] at hk
      split
      · exact h.goto t hk.1 (by simp)
      · rename_i ts seq hnext
        exact h.goto t ⟨hk.1, hk.2, hnext⟩ (by simp)
    · exact h
  | cas t spurious =>
    simp only [step]
    split
    · rename_i k now old ts seq hpc
      split_ifs with hc
      · obtain ⟨rfl, -⟩ := hc
        exact h.issue hpc
      · have hk := h.pcs t
        rw [hpc] at hk
        exact h.goto t hk.1 (by simp)
    · exact h
  | ret t =>
    simp only [step]
    split
    · rename_i e hpc
      exact h.ret hpc
    · exact h

theorem run_inv (G : SnowflakeGenerator) (ops : List Op) (hops : ∀ o ∈ ops, o.clockOk) :
    Inv G (run (step G) init ops) :=
  run_inv_of_every (fun s o ho h => step_inv G s o ho h) (inv_init G) (every_of_forall hops)

/-! ## Main result -/

theorem Inv.id_inj {G : SnowflakeGenerator} {s : St} (h : Inv G s) {a b : Issue} (ha : a ∈ s.issued)
    (hb : b ∈ s.issued) (hab : a.id = b.id) : a = b := by
  have hnd : (s.issued.map (·.id)).Nodup := List.pairwise_map.2 <| h.issued_sorted.imp fun hlt he => by
    rw [he] at hlt; exact UInt64.lt_irrefl _ hlt
  exact List.inj_on_of_nodup_map hnd ha hb hab

theorem Inv.returned_ids_nodup {G : SnowflakeGenerator} {s : St} (h : Inv G s) : (s.returned.map (·.id)).Nodup :=
  h.returned_nodup.map_on fun a ha b hb hab => h.id_inj (h.returned_sub a ha) (h.returned_sub b hb) hab

/-- **Unique, increasing, faithful ids under every interleaving.** The returned ids are pairwise distinct; the ids
increase in the order of the successful exchanges; a call that starts after `snap` calls have returned gets an id above
all of theirs; every id decodes to its generator's machine id and to a timestamp between the clock reading of its last
loop iteration and the largest reading of any call; generators with different machine ids share no id. -/
theorem next_id_concurrent (G : SnowflakeGenerator) (ops : List Op) (hops : ∀ o ∈ ops, o.clockOk) :
    let s := run (step G) init ops
    (s.returned.map (·.id)).Nodup ∧ (∀ e ∈ s.returned, e ∈ s.issued) ∧
    s.issued.Pairwise (fun a b => a.id.value < b.id.value) ∧
    (∀ (i j : ℕ) (a b : Issue), s.returned[i]? = some a → s.returned[j]? = some b → i < b.snap →
      a.id.value < b.id.value) ∧
    (∀ e ∈ s.issued, e.id.machineId = G.machineId ∧ e.reading ≤ e.id.timestampMs ∧
      ∃ r ∈ s.readings, e.id.timestampMs ≤ r) ∧
    (∀ (G' : SnowflakeGenerator) (ops' : List Op), (∀ o ∈ ops', o.clockOk) → G'.machineId ≠ G.machineId →
      ∀ e ∈ s.issued, ∀ e' ∈ (run (step G') init ops').issued, e.id ≠ e'.id) := by
  intro s
  have h : Inv G s := run_inv G ops hops
  refine ⟨h.returned_ids_nodup, h.returned_sub, h.issued_sorted, ?_, h.issued_ok, ?_⟩
  · intro i j a b ha hb hij
    apply (h.returned_after j b hb).2 a
    exact List.mem_of_getElem? (by rw [List.getElem?_take_of_lt hij]; exact ha)
  · intro G' ops' hops' hne e he e' he' heq
    have h1 := (h.issued_ok e he).1
    have h2 := ((run_inv G' ops' hops').issued_ok e' he').1
    rw [heq, h2] at h1
    exact hne h1

/-- Two threads load the same word; thread 0's exchange wins, thread 1's fails and its retry, with the clock stepped
back, takes the next sequence number. -/
def racingTrace : List Op :=
  [.call 0, .call 1, .clock 0 1704067200005, .clock 1 1704067200005, .load 0, .load 1, .cas 0 false, .cas 1 false,
    .ret 0, .clock 1 1704067200003, .load 1, .cas 1 false, .ret 1]

def G1 : SnowflakeGenerator := ⟨1, by decide⟩

theorem next_id_concurrent_racing :
    (run (step G1) init racingTrace).returned.map (·.id.value) = [20975616, 20975617] ∧
    ((run (step G1) init racingTrace).returned.map (·.id)).Nodup :=
  ⟨by decide, (next_id_concurrent G1 racingTrace (by decide)).1⟩

end SnowflakeGenerator

end Lumiere.Models
