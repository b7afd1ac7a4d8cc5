/-
JSON values as `serde_json` holds them, and its accessors: each answers `none` for a value of another kind.

- `get?`, `field`: a key of an object; indexing reads a missing one as null.
- `asI64`, `asId`: a number in range; an id may also be the text of a number.
-/
import Lumiere.Core.Str

namespace Lumiere.Core

inductive Value where
  | null
  | bool (b : Bool)
  /-- a number without fraction and exponent -/
  | int (n : ℤ)
  | float (text : String)
  | string (s : String)
  | array (vs : List Value)
  | object (fields : List (String × Value))

namespace Value

variable (v : Value)

/-- `v.get(key)` -/
def get? (key : String) : Option Value :=
  match v with
  | .object fields => (fields.find? fun f => f.1 = key).map Prod.snd
  | _ => none

/-- `v[key]` -/
def field (key : String) : Value := (v.get? key).getD .null

def asStr : Option String :=
  match v with
  | .string s => some s
  | _ => none

def asBool : Option Bool :=
  match v with
  | .bool b => some b
  | _ => none

def asI64 : Option ℤ :=
  match v with
  | .int n => if -9223372036854775808 ≤ n ∧ n ≤ 9223372036854775807 then some n else none
  | _ => none

def asArray : Option (List Value) :=
  match v with
  | .array vs => some vs
  | _ => none

/-- `v.as_i64().or_else(|| v.as_str().and_then(|s| s.parse().ok()))` -/
def asId : Option ℤ := v.asI64.or (v.asStr.bind Str.parseI64)

end Value

example : ((Value.object [("id", .string "12")]).field "id").asId = some 12 := by decide

end Lumiere.Core
