/-
`AppError` (`lumiere-models/src/error.rs`), the error type of every request handler, and the field errors that
`validation_errors` (`lumiere-server/src/routes/mod.rs`) makes of a failed length check.
-/
import Lumiere.Core.Run

namespace Lumiere.Models

structure FieldError where
  field : String
  message : String
deriving DecidableEq, Repr

inductive AppError where
  | unauthorized (message : String)
  | forbidden (message : String)
  | notFound (message : String)
  | alreadyExists (message : String)
  | validation (errors : List FieldError)
  | rateLimited (retryAfter : ℕ)
  | badRequest (message : String)
  | serviceUnavailable (message : String)
  | internal (error : String)
deriving DecidableEq, Repr

/-- a `#[validate(length(min, max))]` field, counted in characters -/
def lengthErrors (field : String) (min max : ℕ) (value : String) : List FieldError :=
  if min ≤ value.length ∧ value.length ≤ max then [] else [⟨field, "Invalid " ++ field⟩]

def refuseIf (c : Prop) [Decidable c] (e : AppError) : Except AppError Unit := if c then .error e else .ok ()

theorem refuseIf_eq_ok {c : Prop} [Decidable c] {e : AppError} {u : Unit} : refuseIf c e = .ok u ↔ ¬ c := by
  unfold refuseIf
  split_ifs with h <;> simp [h]

end Lumiere.Models
