/-
The events of the MESSAGES stream as JSON (`send_message`, `edit_message`, `delete_message` and `bulk_delete` in
`lumiere-server/src/routes/messages.rs`). The ids beside a message are numbers; those inside it are snowflakes, which
are written as texts.

- `Event.payload`: the payload of an event that is persisted.
- `asId_snowflake`: the ids inside a message are read back as the numbers that they are.
-/
import Lumiere.Core.Json
import Lumiere.Routes.World

namespace Lumiere.Workers

open Lumiere.Core Lumiere.Models Lumiere.Routes

/-- how `serde_json` reads a JSON text, and how chrono writes a time -/
structure Wire where
  json : Json → Value
  date : DateTime → String

/-- a `Snowflake` -/
def snowflake (n : ℤ) : Value := .string (toString (Snowflake.ofI64 n).value)

/-- an `Option`, null if there is none -/
def nullable {α : Type} (f : α → Value) : Option α → Value
  | some a => f a
  | none => .null

/-- `serde_json::to_value` of a `MessageResponse` -/
def messageValue (w : Wire) (m : MessageResponse) : Value := .object
  [("id", snowflake m.id), ("channel_id", snowflake m.channelId), ("author_id", snowflake m.authorId),
    ("content", nullable .string m.content), ("timestamp", .string (w.date m.timestamp)),
    ("edited_timestamp", nullable (fun t => .string (w.date t)) m.editedTimestamp), ("type", .int m.messageType),
    ("flags", .int m.flags), ("pinned", .bool m.pinned), ("mention_everyone", .bool m.mentionEveryone),
    ("mentions", .array (m.mentions.map .int)), ("mention_roles", .array (m.mentionRoles.map .int)),
    ("embeds", nullable w.json m.embeds), ("attachments", nullable w.json m.attachments),
    ("reference_id", nullable snowflake m.referenceId)]

/-- the payload of an event that goes to the stream; the others go to subscribers alone -/
def payload (w : Wire) : Event → Option Value
  | .messageCreate channelId serverId message => some (.object
    [("type", .string "MESSAGE_CREATE"), ("channel_id", .int channelId), ("server_id", nullable .int serverId),
      ("message", messageValue w message)])
  | .messageUpdate channelId messageId => some (.object
    [("type", .string "MESSAGE_UPDATE"), ("channel_id", .int channelId), ("message_id", .int messageId)])
  | .messageDelete channelId messageId => some (.object
    [("type", .string "MESSAGE_DELETE"), ("channel_id", .int channelId), ("message_id", .int messageId)])
  | .messageDeleteBulk channelId ids => some (.object
    [("type", .string "MESSAGE_DELETE_BULK"), ("channel_id", .int channelId), ("ids", .array (ids.map .int))])
  | _ => none

/-! ## Reading them back -/

/-- a signed 64-bit number -/
def FitsI64 (n : ℤ) : Prop := -9223372036854775808 ≤ n ∧ n ≤ 9223372036854775807

instance (n : ℤ) : Decidable (FitsI64 n) :=
  inferInstanceAs (Decidable (-9223372036854775808 ≤ n ∧ n ≤ 9223372036854775807))

theorem toI64_ofI64 {n : ℤ} (h : FitsI64 n) : (Snowflake.ofI64 n).toI64 = n := by
  have hn := h.1
  have hn' := h.2
  unfold Snowflake.ofI64 Snowflake.toI64 UInt64.ofInt
  have hmod : ((n % 2 ^ 64).toNat : ℤ) = n % 2 ^ 64 := Int.toNat_of_nonneg (Int.emod_nonneg n (by omega))
  rw [UInt64.toBitVec_ofNat', BitVec.toInt_ofNat', hmod]
  refine (Int.emod_bmod ..).trans (Int.bmod_eq_of_le ?_ ?_)
  · norm_num
    omega
  · norm_num
    omega

theorem fitsI64_toI64 (s : Snowflake) : FitsI64 s.toI64 := ⟨BitVec.le_toInt _, BitVec.toInt_le⟩

theorem ofI64_inj {m n : ℤ} (hm : FitsI64 m) (hn : FitsI64 n) : Snowflake.ofI64 m = Snowflake.ofI64 n ↔ m = n := by
  refine ⟨fun h => ?_, congrArg _⟩
  have hto := congrArg Snowflake.toI64 h
  rwa [toI64_ofI64 hm, toI64_ofI64 hn] at hto

theorem asI64_int {n : ℤ} (h : FitsI64 n) : (Value.int n).asI64 = some n := if_pos h

theorem parseI64_toString {n : ℕ} (h : n ≤ 9223372036854775807) : Str.parseI64 (toString n) = some (n : ℤ) := by
  have hlist : (toString n).toList = Nat.toDigits 10 n := Nat.toList_repr
  unfold Str.parseI64
  rw [hlist]
  split
  · rename_i ds heq
    have hminus : '-' ∈ Nat.toDigits 10 n := heq ▸ List.mem_cons_self
    exact absurd (Nat.isDigit_of_mem_toDigits (by decide) (by decide) hminus) (by decide)
  · rename_i ds heq
    have hplus : '+' ∈ Nat.toDigits 10 n := heq ▸ List.mem_cons_self
    exact absurd (Nat.isDigit_of_mem_toDigits (by decide) (by decide) hplus) (by decide)
  · rw [Str.digits_toDigits, Option.bind_some, if_pos h]

/-- an id that is not negative is read back from its text -/
theorem asId_snowflake {n : ℤ} (h : 0 ≤ n) (hfits : FitsI64 n) : (snowflake n).asId = some n := by
  obtain ⟨k, rfl⟩ := Int.eq_ofNat_of_zero_le h
  have hk : k ≤ 9223372036854775807 := by
    have := hfits.2
    omega
  have hvalue : (Snowflake.ofI64 k).value.toNat = k := by
    unfold Snowflake.ofI64 UInt64.ofInt
    rw [UInt64.toNat_ofNat']
    omega
  have htext : toString (Snowflake.ofI64 k).value = toString k := by
    show Nat.repr (Snowflake.ofI64 k).value.toNat = Nat.repr k
    rw [hvalue]
  unfold snowflake Value.asId Value.asI64 Value.asStr
  rw [htext, Option.none_or, Option.bind_some]
  exact parseI64_toString hk

end Lumiere.Workers
