/-
The structs that serde derives `Deserialize` for, read from a JSON value: a field by its key in an object or by its
place in an array, and what becomes of a field that is absent or null. A field of type `Option<Option<T>>` is meant to
tell the two apart.

- `Patches`: a field that is absent leaves the column, null clears it and a value sets it.
- `patches_nested`: without an attribute null is read by the outer `Option`, so the column is left.
- `patches_nullable`: with an own deserializer it is not.
-/
import Lumiere.Core.Json

namespace Lumiere.Core.Deserialize

/-! ## Structs -/

/-- an object in which no field is there twice, or an array of all fields -/
def isStruct (keys : List String) : Value → Bool
  | .object fields => keys.all fun key => fields.countP (fun f => f.1 = key) ≤ 1
  | .array vs => vs.length = keys.length
  | _ => false

/-- the value of a field, if it is there -/
def lookup (keys : List String) (key : String) : Value → Option Value
  | .object fields => (fields.find? fun f => f.1 = key).map Prod.snd
  | .array vs => vs[keys.idxOf key]?
  | _ => none

/-! ## Types -/

variable {α : Type}

/-- `Option<T>` of a value -/
def option (read : Value → Option α) : Value → Option (Option α)
  | .null => some none
  | v => (read v).map some

/-- a field of type `Option<T>`, which may be absent -/
def field (read : Value → Option (Option α)) : Option Value → Option (Option α)
  | none => some none
  | some v => read v

/-- a field that must be there -/
def required (read : Value → Option α) (value : Option Value) : Option α := value.bind read

/-- a deserializer that reads an `Option<T>` of whatever is there -/
def nullable (read : Value → Option α) (v : Value) : Option (Option (Option α)) := (option read v).map some

/-- an integer type -/
def int (min max : ℤ) : Value → Option ℤ
  | .int n => if min ≤ n ∧ n ≤ max then some n else none
  | _ => none

def i16 : Value → Option ℤ := int (-32768) 32767

def i32 : Value → Option ℤ := int (-2147483648) 2147483647

def i64 : Value → Option ℤ := int (-9223372036854775808) 9223372036854775807

def vec (read : Value → Option α) : Value → Option (List α)
  | .array vs => vs.mapM read
  | _ => none

/-- the field of type `Option<T>` with this key -/
def optional (keys : List String) (key : String) (read : Value → Option α) (json : Value) : Option (Option α) :=
  field (option read) (lookup keys key json)

/-- the field of type `Option<Option<T>>` with this key, without an attribute -/
def nested (keys : List String) (key : String) (read : Value → Option α) (json : Value) : Option (Option (Option α)) :=
  field (option (option read)) (lookup keys key json)

/-- the same with its own deserializer -/
def nullableField (keys : List String) (key : String) (read : Value → Option α) (json : Value) :
    Option (Option (Option α)) :=
  field (nullable read) (lookup keys key json)

/-! ## Absent, null and a value -/

/-- what a field does to a column that may be null -/
def Patches (read : Value → Option α) (value : Option Value) (before after : Option α) : Prop :=
  match value with
  | none => after = before
  | some .null => after = none
  | some v => after = read v

section Fields

variable {read : Value → Option α} {value : Option Value} {decoded : Option (Option α)} {before : Option α}
  {store : α → α}

/-- what is written for a field that was decoded, where a value is stored as `store` makes it -/
def written (store : α → α) (decoded : Option (Option α)) (before : Option α) : Option α :=
  (decoded.map (Option.map store)).getD before

/-- the value of the field is stored unchanged -/
def Unchanged (store : α → α) (read : Value → Option α) (value : Option Value) : Prop :=
  ∀ v a, value = some v → v ≠ .null → read v = some a → store a = a

theorem option_of_ne_null {v : Value} (h : v ≠ .null) : option read v = (read v).map some := by
  unfold option
  split
  · exact absurd rfl h
  · rfl

theorem patches_some {v : Value} {after : Option α} (h : v ≠ .null) :
    Patches read (some v) before after ↔ after = read v := by
  unfold Patches
  split
  · rename_i heq
    nomatch heq
  · rename_i heq
    exact absurd (Option.some.inj heq) h
  · rename_i heq
    rw [Option.some.inj heq]

/-- a value that is decoded is written as it is stored -/
theorem patches_written {v : Value} (h : v ≠ .null) {a : α} (hread : read v = some a) :
    Patches read (some v) before (written store (some (some a)) before) ↔ Unchanged store read (some v) := by
  have hwritten : written store (some (some a)) before = some (store a) := rfl
  rw [patches_some h, hwritten, hread, Option.some_inj]
  constructor
  · intro hstore v' a' hv _ hread'
    obtain rfl := Option.some.inj hv
    obtain rfl := Option.some.inj (hread.symm.trans hread')
    exact hstore
  · intro hunchanged
    exact hunchanged v a rfl h hread

/-- **Null is taken for an absent field**: the law holds where the column is null already. -/
theorem patches_nested (hdecoded : field (option (option read)) value = some decoded) :
    Patches read value before (written store decoded before) ↔
      (value = some .null → before = none) ∧ Unchanged store read value := by
  rcases value with _ | v
  · obtain rfl := Option.some.inj hdecoded
    exact iff_of_true rfl ⟨fun h => (nomatch h), fun _ _ h => (nomatch h)⟩
  by_cases hnull : v = .null
  · subst hnull
    obtain rfl := Option.some.inj hdecoded
    exact ⟨fun h => ⟨fun _ => h, fun _ _ hv hne => absurd (Option.some.inj hv).symm hne⟩, fun h => h.1 rfl⟩
  · rw [field, option_of_ne_null hnull, option_of_ne_null hnull] at hdecoded
    rcases hread : read v with _ | a
    · rw [hread] at hdecoded
      nomatch hdecoded
    rw [hread] at hdecoded
    obtain rfl := Option.some.inj hdecoded
    rw [patches_written hnull hread]
    exact ⟨fun h => ⟨fun heq => absurd (Option.some.inj heq) hnull, h⟩, fun h => h.2⟩

/-- **With its own deserializer null clears the column.** -/
theorem patches_nullable (hdecoded : field (nullable read) value = some decoded) :
    Patches read value before (written store decoded before) ↔ Unchanged store read value := by
  rcases value with _ | v
  · obtain rfl := Option.some.inj hdecoded
    exact iff_of_true rfl fun _ _ h => nomatch h
  by_cases hnull : v = .null
  · subst hnull
    obtain rfl := Option.some.inj hdecoded
    exact iff_of_true rfl fun _ _ hv hne => absurd (Option.some.inj hv).symm hne
  · rw [field, nullable, option_of_ne_null hnull] at hdecoded
    rcases hread : read v with _ | a
    · rw [hread] at hdecoded
      nomatch hdecoded
    rw [hread] at hdecoded
    obtain rfl := Option.some.inj hdecoded
    exact patches_written hnull hread

theorem unchanged_id : Unchanged id read value := fun _ _ _ _ _ => rfl

end Fields

end Lumiere.Core.Deserialize
